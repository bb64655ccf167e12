import TreeDigest.Number.Binary64
namespace TreeDigest.OpenFiles

def perWorker : Nat := 2

-- The share of the limit that workers may use, as the nearest double to four fifths.
def share : Binary64 := ⟨7205759403792794, -53⟩

-- A limit beyond the signed range counts as none.
def limit? (soft : Nat) : Option Nat := if soft < Nat.pow 2 63 then some soft else none

def usable (limit : Nat) : Nat :=
  match (Binary64.ofRatio? limit 1).bind (·.mul? share) with
  | some x => min x.floor (UInt64.size - 1)
  | none => UInt64.size - 1

def budget (limit : Nat) : Nat := max (usable limit / perWorker) 1

def budget? (soft : Nat) : Option Nat := (limit? soft).map budget

def capWorkers (soft requested : Nat) : Nat :=
  match budget? soft with
  | some most => min requested most
  | none => requested

end TreeDigest.OpenFiles
