namespace TreeDigest

inductive CancelReason where
  | requested
  | timedOut
  | failed
  | workerPanicked
  | released
  deriving DecidableEq, Repr

theorem reasoned_unwoken : false = true → (none : Option CancelReason).isSome = true := nofun

-- A one-shot signal. Tripping it takes two steps: recording a reason, then waking the waiters.
structure Signal where
  reason : Option CancelReason := none
  woken : Bool := false
  reasoned : woken = true → reason.isSome = true := by exact reasoned_unwoken
  deriving DecidableEq, Repr

namespace Signal

instance : Inhabited Signal := ⟨{}⟩

def isTripped (s : Signal) : Bool := s.reason.isSome

theorem isTripped_of_woken {s : Signal} (woken : s.woken = true) : s.isTripped = true := s.reasoned woken

def record (s : Signal) (r : CancelReason) : Signal where
  reason := s.reason.or (some r)
  woken := s.woken
  reasoned _ := by cases s.reason <;> rfl

def wake (s : Signal) : Signal where
  reason := s.reason
  woken := s.isTripped
  reasoned := id

def trip (s : Signal) (r : CancelReason) : Bool × Signal := (!s.isTripped, (s.record r).wake)

end Signal
end TreeDigest
