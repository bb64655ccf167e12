namespace TreeDigest

inductive Pull (α : Type) where
  | item (x : α)
  | error (message : String)
  | panic
  | finished
  deriving Repr, Inhabited

-- An enumeration answers one request after the other. It may already break while it is set up.
structure Enumerator (α : Type) where
  starts : Bool := true
  pull : Nat → Pull α

namespace Enumerator

def ofList (pulls : List (Pull α)) : Enumerator α :=
  let answers := pulls.toArray
  { pull := fun n => answers.getD n .finished }

def items (e : Enumerator α) : Nat → Nat → List α
  | 0, _ => []
  | count + 1, n =>
    match e.pull n with
    | .item x => x :: items e count (n + 1)
    | _ => []

end Enumerator

inductive Attempt (β : Type) where
  | value (v : β)
  | error (message : String)
  | panic
  | never
  deriving Repr, Inhabited

structure Outcome (α β : Type) where
  item : α
  result : Except String β

end TreeDigest
