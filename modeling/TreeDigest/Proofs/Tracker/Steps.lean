import TreeDigest.Tracker
namespace TreeDigest

section Places
variable {xs : List α} {x y : α} {i j : Nat} {p : α → Bool}

theorem any_set (found : xs[i]? = some x) :
    (xs.set i y)[j]?.any p = if j = i then p y else xs[j]?.any p := by
  by_cases same : i = j
  · subst same
    rw [List.getElem?_set_self (List.getElem?_eq_some_iff.mp found).1, if_pos rfl]
    rfl
  · rw [List.getElem?_set_ne same, if_neg (Ne.symm same)]

theorem any_set_alike (found : xs[i]? = some x) (alike : p y = p x) :
    (xs.set i y)[j]?.any p = xs[j]?.any p := by
  rw [any_set found]
  split
  · rename_i same
    rw [same, found]
    exact alike
  · rfl

theorem any_concat (new : p x = false) : (xs ++ [x])[j]?.any p = xs[j]?.any p := by
  rw [List.getElem?_append]
  split
  · rfl
  · rename_i beyond
    rw [List.getElem?_eq_none (Nat.le_of_not_lt beyond), List.getElem?_singleton]
    split
    · exact new
    · rfl

theorem getElem?_concat {z : α} (here : xs[j]? = some z) : (xs ++ [y])[j]? = some z :=
  (List.getElem?_append_left (List.getElem?_eq_some_iff.mp here).1).trans here

theorem getElem?_set_other {z : α} (found : xs[i]? = some x) (here : xs[j]? = some z) (other : x ≠ z) :
    (xs.set i y)[j]? = some z := by
  have apart : i ≠ j := by
    intro same
    subst same
    exact other (Option.some.inj (found.symm.trans here))
  exact (List.getElem?_set_ne apart).trans here

end Places

def Completion.isInside : Completion → Bool
  | .counting | .notifying | .releasing => true
  | _ => false

def Reader.isInside : Reader → Bool
  | .looking => true
  | _ => false

def Waiter.isInside : Waiter → Bool
  | .looking | .settling | .leaving => true
  | _ => false

theorem Completion.begun_isInside (panicking : Bool) : (begun panicking).isInside = false := by
  cases panicking <;> rfl

theorem Completion.after_isInside (left : Nat) : (after left).isInside = true := by
  unfold after
  split <;> rfl

theorem Waiter.after_isInside (count : Nat) : (after count).isInside = true := by
  unfold after
  split <;> rfl

namespace Tracker

inductive Step (s : Tracker) : Event → Tracker → Prop where
  | guard : Step s .guard { s with completions := s.completions ++ [.held] }
  | leave {g : Nat} {panicking : Bool} (held : s.completions[g]? = some .held) :
      Step s (.leave g panicking) (s.setCompletion g (.begun panicking))
  | count : Step s .count { s with completions := s.completions ++ [.arriving] }
  | blame {n : Nat} (recording : s.completions[n]? = some .recording) : Step s (.complete n)
      ({ s with signal := s.signal.record .workerPanicked }.setCompletion n .waking)
  | alarm {n : Nat} (waking : s.completions[n]? = some .waking) :
      Step s (.complete n) ({ s with signal := s.signal.wake }.setCompletion n .arriving)
  | enter {n : Nat} (arriving : s.completions[n]? = some .arriving) (free : s.holder = none) :
      Step s (.complete n) ({ s with holder := some (.completion n) }.setCompletion n .counting)
  | countDown {n : Nat} (counting : s.completions[n]? = some .counting) :
      Step s (.complete n)
        ({ s with outstanding := s.outstanding - 1 }.setCompletion n (.after (s.outstanding - 1)))
  | notify {n : Nat} (notifying : s.completions[n]? = some .notifying) :
      Step s (.complete n) ({ s with waiters := s.waiters.map rouse }.setCompletion n .releasing)
  | release {n : Nat} (releasing : s.completions[n]? = some .releasing) :
      Step s (.complete n) ({ s with holder := none }.setCompletion n .done)
  | ask : Step s .ask { s with readers := s.readers ++ [.arriving] }
  | look {n : Nat} (arriving : s.readers[n]? = some .arriving) (free : s.holder = none) :
      Step s (.read n) ({ s with holder := some (.reader n) }.setReader n .looking)
  | tell {n : Nat} (looking : s.readers[n]? = some .looking) :
      Step s (.read n) ({ s with holder := none }.setReader n (.told s.outstanding))
  | wait : Step s .wait { s with waiters := s.waiters ++ [.arriving] }
  | watch {n : Nat} (arriving : s.waiters[n]? = some .arriving) (free : s.holder = none) :
      Step s (.await n) ({ s with holder := some (.waiter n) }.setWaiter n .looking)
  | see {n : Nat} (looking : s.waiters[n]? = some .looking) :
      Step s (.await n) (s.setWaiter n (.after s.outstanding))
  | sleep {n : Nat} (settling : s.waiters[n]? = some .settling) :
      Step s (.await n) ({ s with holder := none }.setWaiter n .asleep)
  | comeBack {n : Nat} (leaving : s.waiters[n]? = some .leaving) :
      Step s (.await n) ({ s with holder := none }.setWaiter n .returned)
  | stir {n : Nat} (asleep : s.waiters[n]? = some .asleep) :
      Step s (.stir n) (s.setWaiter n .arriving)
  | record {r : CancelReason} : Step s (.record r) { s with signal := s.signal.record r }
  | wake (tripped : s.signal.isTripped = true) : Step s .wake { s with signal := s.signal.wake }

variable {s t : Tracker} {e : Event} {n : Nat}

theorem complete_sound (moved : s.advance (.complete n) = some t) : Step s (.complete n) t := by
  obtain ⟨c, found, went⟩ := Option.bind_eq_some_iff.mp moved
  cases c with
  | held | done => cases went
  | recording => cases went; exact .blame found
  | waking => cases went; exact .alarm found
  | arriving =>
    obtain ⟨free, own⟩ := Option.ite_none_right_eq_some.mp went
    cases own
    exact .enter found free
  | counting => cases went; exact .countDown found
  | notifying => cases went; exact .notify found
  | releasing => cases went; exact .release found

theorem read_sound (moved : s.advance (.read n) = some t) : Step s (.read n) t := by
  obtain ⟨r, found, went⟩ := Option.bind_eq_some_iff.mp moved
  cases r with
  | told => cases went
  | arriving =>
    obtain ⟨free, own⟩ := Option.ite_none_right_eq_some.mp went
    cases own
    exact .look found free
  | looking => cases went; exact .tell found

theorem await_sound (moved : s.advance (.await n) = some t) : Step s (.await n) t := by
  obtain ⟨w, found, went⟩ := Option.bind_eq_some_iff.mp moved
  cases w with
  | asleep | returned => cases went
  | arriving =>
    obtain ⟨free, own⟩ := Option.ite_none_right_eq_some.mp went
    cases own
    exact .watch found free
  | looking => cases went; exact .see found
  | settling => cases went; exact .sleep found
  | leaving => cases went; exact .comeBack found

theorem advance_sound (moved : s.advance e = some t) : Step s e t := by
  cases e with
  | guard => cases moved; exact .guard
  | leave g panicking =>
    obtain ⟨held, own⟩ := Option.ite_none_right_eq_some.mp moved
    cases own
    exact .leave held
  | count => cases moved; exact .count
  | complete n => exact complete_sound moved
  | ask => cases moved; exact .ask
  | read n => exact read_sound moved
  | wait => cases moved; exact .wait
  | await n => exact await_sound moved
  | stir n =>
    obtain ⟨asleep, own⟩ := Option.ite_none_right_eq_some.mp moved
    cases own
    exact .stir asleep
  | record r => cases moved; exact .record
  | wake =>
    obtain ⟨tripped, own⟩ := Option.ite_none_right_eq_some.mp moved
    cases own
    exact .wake tripped

def isInside (s : Tracker) : Party → Bool
  | .completion n => s.completions[n]?.any Completion.isInside
  | .reader n => s.readers[n]?.any Reader.isInside
  | .waiter n => s.waiters[n]?.any Waiter.isInside

def Exclusive (s : Tracker) : Prop := ∀ p, s.isInside p = true ↔ s.holder = some p

section Crossing
variable {p q : Party} {c d : Completion} {r v : Reader} {w x : Waiter}

theorem isInside_completion (found : s.completions[n]? = some c) :
    s.isInside (.completion n) = c.isInside := by
  rw [isInside, found]
  rfl

theorem isInside_reader (found : s.readers[n]? = some r) : s.isInside (.reader n) = r.isInside := by
  rw [isInside, found]
  rfl

theorem isInside_waiter (found : s.waiters[n]? = some w) : s.isInside (.waiter n) = w.isInside := by
  rw [isInside, found]
  rfl

theorem isInside_setCompletion (found : s.completions[n]? = some c) :
    (s.setCompletion n d).isInside q = if q = .completion n then d.isInside else s.isInside q := by
  cases q with
  | completion m => simp [isInside, setCompletion, any_set found]
  | reader | waiter => rfl

theorem isInside_setReader (found : s.readers[n]? = some r) :
    (s.setReader n v).isInside q = if q = .reader n then v.isInside else s.isInside q := by
  cases q with
  | reader m => simp [isInside, setReader, any_set found]
  | completion | waiter => rfl

theorem isInside_setWaiter (found : s.waiters[n]? = some w) :
    (s.setWaiter n x).isInside q = if q = .waiter n then x.isInside else s.isInside q := by
  cases q with
  | waiter m => simp [isInside, setWaiter, any_set found]
  | completion | reader => rfl

theorem rouse_isInside (w : Waiter) : (rouse w).isInside = w.isInside := by
  cases w <;> rfl

theorem Exclusive.move {inside : Bool} (exclusive : s.Exclusive)
    (moves : ∀ q, t.isInside q = if q = p then inside else s.isInside q)
    (before : s.holder = none ∨ s.holder = some p)
    (after : t.holder = if inside then some p else none) : t.Exclusive := by
  intro q
  rw [moves, after]
  by_cases own : q = p
  · subst own
    cases inside <;> simp
  · have outside : s.isInside q = false := by
      apply Bool.eq_false_iff.mpr
      intro within
      rcases before with free | held
      · exact nomatch free.symm.trans ((exclusive q).mp within)
      · cases held.symm.trans ((exclusive q).mp within)
        exact own rfl
    rw [if_neg own, outside]
    cases inside <;> simp [Ne.symm own]

theorem Exclusive.stay (exclusive : s.Exclusive) (holder : t.holder = s.holder)
    (completions : ∀ n, t.isInside (.completion n) = s.isInside (.completion n))
    (readers : ∀ n, t.isInside (.reader n) = s.isInside (.reader n))
    (waiters : ∀ n, t.isInside (.waiter n) = s.isInside (.waiter n)) : t.Exclusive := by
  intro q
  have same : t.isInside q = s.isInside q := by
    cases q with
    | completion n => exact completions n
    | reader n => exact readers n
    | waiter n => exact waiters n
  rw [same, holder]
  exact exclusive q

theorem Exclusive.held (exclusive : s.Exclusive) (inside : s.isInside p = true) : s.holder = some p :=
  (exclusive p).mp inside

theorem Exclusive.alone (exclusive : s.Exclusive) (inside : s.isInside p = true) (other : q ≠ p) :
    s.isInside q = false := by
  apply Bool.eq_false_iff.mpr
  intro within
  cases (exclusive.held inside).symm.trans (exclusive.held within)
  exact other rfl

end Crossing

theorem start_exclusive (expected : Nat) : (start expected).Exclusive := by
  intro p
  cases p <;> simp [isInside, start]

theorem Exclusive.step (exclusive : s.Exclusive) (step : Step s e t) : t.Exclusive := by
  cases step with
  | guard | count =>
    exact exclusive.stay rfl (fun _ => any_concat rfl) (fun _ => rfl) (fun _ => rfl)
  | ask => exact exclusive.stay rfl (fun _ => rfl) (fun _ => any_concat rfl) (fun _ => rfl)
  | wait => exact exclusive.stay rfl (fun _ => rfl) (fun _ => rfl) (fun _ => any_concat rfl)
  | @leave g panicking held =>
    have outside := Completion.begun_isInside panicking
    exact exclusive.stay rfl (fun _ => any_set_alike held outside) (fun _ => rfl) (fun _ => rfl)
  | blame found | alarm found =>
    exact exclusive.stay rfl (fun _ => any_set_alike found rfl) (fun _ => rfl) (fun _ => rfl)
  | countDown counting =>
    have inside := Completion.after_isInside (s.outstanding - 1)
    exact exclusive.stay rfl (fun _ => any_set_alike counting inside) (fun _ => rfl) (fun _ => rfl)
  | notify notifying =>
    refine exclusive.stay rfl (fun _ => any_set_alike notifying rfl) (fun _ => rfl) (fun m => ?_)
    simp only [isInside, setCompletion, List.getElem?_map]
    cases s.waiters[m]? with
    | none => rfl
    | some w => exact rouse_isInside w
  | see looking =>
    have inside := Waiter.after_isInside s.outstanding
    exact exclusive.stay rfl (fun _ => rfl) (fun _ => rfl) (fun _ => any_set_alike looking inside)
  | stir asleep =>
    exact exclusive.stay rfl (fun _ => rfl) (fun _ => rfl) (fun _ => any_set_alike asleep rfl)
  | record | wake => exact exclusive.stay rfl (fun _ => rfl) (fun _ => rfl) (fun _ => rfl)
  | enter arriving free =>
    exact exclusive.move (fun q => isInside_setCompletion arriving) (.inl free) rfl
  | look arriving free => exact exclusive.move (fun q => isInside_setReader arriving) (.inl free) rfl
  | watch arriving free => exact exclusive.move (fun q => isInside_setWaiter arriving) (.inl free) rfl
  | release releasing =>
    have held := exclusive.held (isInside_completion releasing)
    exact exclusive.move (fun q => isInside_setCompletion releasing) (.inr held) rfl
  | tell looking =>
    have held := exclusive.held (isInside_reader looking)
    exact exclusive.move (fun q => isInside_setReader looking) (.inr held) rfl
  | sleep found | comeBack found =>
    have held := exclusive.held (isInside_waiter found)
    exact exclusive.move (fun q => isInside_setWaiter found) (.inr held) rfl

end Tracker
end TreeDigest
