import TreeDigest.Tracker
namespace TreeDigest.Tracker

-- What can be told of a run. A completion begins when its guard is dropped or when a worker without a
-- guard leaves. Others may trip the signal, too.
inductive Deed where
  | begin (completion : Nat) (panicking : Bool)
  | blame (completion : Nat)
  | count (completion : Nat)
  | tell (reader count : Nat)
  | comeBack (waiter : Nat)
  | record (reason : CancelReason)
  deriving DecidableEq, Repr

def deed? (s : Tracker) : Event → Option Deed
  | .leave g panicking => some (.begin g panicking)
  | .count => some (.begin s.completions.length false)
  | .complete n =>
    match s.completions[n]? with
    | some .recording => some (.blame n)
    | some .counting => some (.count n)
    | _ => none
  | .read n => if s.readers[n]? = some .looking then some (.tell n s.outstanding) else none
  | .await n => if s.waiters[n]? = some .leaving then some (.comeBack n) else none
  | .record r => some (.record r)
  | _ => none

def deeds (s : Tracker) : List Event → List Deed
  | [] => []
  | e :: rest =>
    match s.advance e with
    | some t => (s.deed? e).toList ++ t.deeds rest
    | none => []

namespace Deed

def isBegin : Deed → Bool
  | .begin .. => true
  | _ => false

def isCount : Deed → Bool
  | .count _ => true
  | _ => false

def reason? : Deed → Option CancelReason
  | .blame _ => some .workerPanicked
  | .record r => some r
  | _ => none

end Deed

def begun (log : List Deed) : Nat := log.countP Deed.isBegin

def counted (log : List Deed) : Nat := log.countP Deed.isCount

def reasons (log : List Deed) : List CancelReason := log.filterMap Deed.reason?

-- What a deed has behind it. Where no more have begun than are expected, whoever comes back finds every
-- panic recorded.
def Deed.Grounded (expected : Nat) (before : List Deed) : Deed → Prop
  | .count n => .count n ∉ before ∧ (.begin n true ∈ before → .blame n ∈ before)
  | .tell _ k => k = expected - counted before
  | .comeBack _ => expected ≤ counted before ∧
    (begun before ≤ expected → ∀ n, .begin n true ∈ before → .blame n ∈ before)
  | .begin .. | .blame _ | .record _ => True

def Grounded (expected : Nat) (log : List Deed) : Prop :=
  ∀ before d after, log = before ++ d :: after → d.Grounded expected before

variable {log : List Deed} {d : Deed} {expected : Nat}

theorem begun_concat : begun (log ++ [d]) = begun log + d.isBegin.toNat := by
  cases begins : d.isBegin <;> simp [begun, begins]

theorem counted_concat : counted (log ++ [d]) = counted log + d.isCount.toNat := by
  cases counts : d.isCount <;> simp [counted, counts]

theorem reasons_concat : (reasons (log ++ [d])).head? = (reasons log).head?.or d.reason? := by
  cases reason : d.reason? <;> simp [reasons, reason]

theorem Grounded.snoc (grounded : Grounded expected log) (last : d.Grounded expected log) :
    Grounded expected (log ++ [d]) := by
  intro before own after split
  rcases List.eq_nil_or_concat after with rfl | ⟨rest, final, rfl⟩
  · obtain ⟨same, equal⟩ := List.append_inj' split rfl
    cases equal
    exact same ▸ last
  · rw [List.concat_eq_append, ← List.cons_append, ← List.append_assoc] at split
    obtain ⟨earlier, -⟩ := List.append_inj' split rfl
    exact grounded before own rest earlier

end TreeDigest.Tracker
