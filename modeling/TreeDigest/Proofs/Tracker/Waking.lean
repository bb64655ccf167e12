import TreeDigest.Proofs.Tracker.Steps
namespace TreeDigest.Tracker

def Notifies (s : Tracker) : Prop := ∃ n : Nat, s.completions[n]? = some .notifying

-- What a waiter can rely on where it stands. One that has made up its mind to sleep still holds the lock,
-- so that the count cannot have changed since it looked.
def Standing (s : Tracker) : Waiter → Prop
  | .arriving | .looking => True
  | .settling => 0 < s.outstanding
  | .asleep => s.outstanding = 0 → s.Notifies
  | .leaving | .returned => s.outstanding = 0

def Attended (s : Tracker) : Prop := ∀ w ∈ s.waiters, s.Standing w

def Rousing (s : Tracker) (w : Nat) : Prop :=
  ∃ (n : Nat) (t : Tracker), s.completions[n]? = some .notifying ∧ s.advance (.complete n) = some t ∧
    t.waiters[w]? = some .arriving

variable {s t : Tracker} {e : Event} {n : Nat} {c d : Completion}

theorem Notifies.concat (notifies : s.Notifies) :
    ({ s with completions := s.completions ++ [c] } : Tracker).Notifies := by
  obtain ⟨m, here⟩ := notifies
  exact ⟨m, getElem?_concat here⟩

theorem Notifies.set (notifies : s.Notifies) (found : s.completions[n]? = some c)
    (other : c ≠ .notifying) : (s.setCompletion n d).Notifies := by
  obtain ⟨m, here⟩ := notifies
  exact ⟨m, getElem?_set_other found here other⟩

theorem start_attended (expected : Nat) : (start expected).Attended := nofun

theorem standing_after (s : Tracker) : s.Standing (.after s.outstanding) := by
  unfold Waiter.after
  split
  · rename_i zero
    exact zero
  · rename_i more
    exact Nat.pos_of_ne_zero more

theorem Attended.keep (attended : s.Attended) (same : t.outstanding = s.outstanding)
    (notifies : s.Notifies → t.Notifies) (waiters : ∀ w ∈ t.waiters, w ∈ s.waiters ∨ t.Standing w) :
    t.Attended := by
  intro w member
  rcases waiters w member with old | new
  · have before := attended w old
    cases w with
    | arriving | looking => trivial
    | settling =>
      change 0 < t.outstanding
      rw [same]
      exact before
    | asleep =>
      intro zero
      exact notifies (before (same.symm.trans zero))
    | leaving | returned => exact same.trans before
  · exact new

theorem Attended.move {w : Waiter} (attended : s.Attended) (outstanding : t.outstanding = s.outstanding)
    (completions : t.completions = s.completions) (waiters : t.waiters = s.waiters.set n w)
    (standing : t.Standing w) : t.Attended := by
  refine attended.keep outstanding (fun notifies => ?_) (fun v member => ?_)
  · unfold Notifies
    rw [completions]
    exact notifies
  · rw [waiters] at member
    rcases List.mem_or_eq_of_mem_set member with old | rfl
    · exact .inl old
    · exact .inr standing

-- Nobody who has only made up its mind can miss the zero: whoever counts holds the lock alone.
theorem Attended.countDown (attended : s.Attended) (exclusive : s.Exclusive)
    (counting : s.completions[n]? = some .counting) :
    ({ s with outstanding := s.outstanding - 1 }.setCompletion n
      (.after (s.outstanding - 1))).Attended := by
  intro w (member : w ∈ s.waiters)
  have before := attended w member
  have outside : w.isInside = false := by
    obtain ⟨m, found⟩ := List.getElem?_of_mem member
    rw [← isInside_waiter found]
    exact exclusive.alone (isInside_completion counting) nofun
  cases w with
  | arriving => trivial
  | looking | settling | leaving => cases outside
  | asleep =>
    intro (zero : s.outstanding - 1 = 0)
    refine ⟨n, ?_⟩
    rw [Completion.after, if_pos zero]
    exact List.getElem?_set_self (List.getElem?_eq_some_iff.mp counting).1
  | returned =>
    change s.outstanding = 0 at before
    change s.outstanding - 1 = 0
    rw [before]

theorem Attended.notify (attended : s.Attended) :
    ({ s with waiters := s.waiters.map rouse }.setCompletion n d).Attended := by
  intro w member
  obtain ⟨v, old, rfl⟩ := List.mem_map.mp member
  have before := attended v old
  cases v with
  | asleep => trivial
  | arriving | looking | settling | leaving | returned => exact before

theorem Attended.step (attended : s.Attended) (exclusive : s.Exclusive) (step : Step s e t) :
    t.Attended := by
  cases step with
  | guard | count => exact attended.keep rfl (fun notifies => notifies.concat) (fun _ => .inl)
  | leave held => exact attended.keep rfl (fun notifies => notifies.set held nofun) (fun _ => .inl)
  | blame found | alarm found | enter found | release found =>
    exact attended.keep rfl (fun notifies => notifies.set found nofun) (fun _ => .inl)
  | countDown counting => exact attended.countDown exclusive counting
  | notify => exact attended.notify
  | ask | look | tell | record | wake => exact attended.keep rfl id (fun _ => .inl)
  | wait =>
    refine attended.keep rfl id (fun w member => ?_)
    rcases List.mem_append.mp member with old | new
    · exact .inl old
    · cases List.mem_singleton.mp new
      exact .inr trivial
  | watch | stir => exact attended.move rfl rfl rfl trivial
  | see looking => exact attended.move rfl rfl rfl s.standing_after
  | sleep settling =>
    have more : 0 < s.outstanding := attended _ (List.mem_of_getElem? settling)
    exact attended.move rfl rfl rfl (fun zero => absurd zero (Nat.ne_of_gt more))
  | comeBack leaving =>
    have zero : s.outstanding = 0 := attended _ (List.mem_of_getElem? leaving)
    exact attended.move rfl rfl rfl zero

theorem Attended.rousing {w : Nat} (attended : s.Attended) (asleep : s.waiters[w]? = some .asleep)
    (zero : s.outstanding = 0) : s.Rousing w := by
  obtain ⟨n, notifying⟩ := attended .asleep (List.mem_of_getElem? asleep) zero
  refine ⟨n, { s with waiters := s.waiters.map rouse }.setCompletion n .releasing, notifying, ?_, ?_⟩
  · rw [advance, notifying]
    rfl
  · simp [setCompletion, asleep, rouse]

end TreeDigest.Tracker
