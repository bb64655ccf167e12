import TreeDigest.Proofs.Tracker.Counting
namespace TreeDigest.Tracker

variable {s t : Tracker} {e : Event} {log : List Deed} {expected n : Nat} {events : List Event}

structure Sound (expected : Nat) (log : List Deed) (s : Tracker) : Prop where
  exclusive : s.Exclusive
  attended : s.Attended
  accounted : s.Accounted expected log

theorem start_sound (expected : Nat) : (start expected).Sound expected [] :=
  ⟨start_exclusive expected, start_attended expected, start_accounted expected⟩

theorem Sound.step (sound : s.Sound expected log) (step : Step s e t) :
    t.Sound expected (log ++ (s.deed? e).toList) :=
  ⟨sound.exclusive.step step, sound.attended.step sound.exclusive step,
    sound.accounted.step sound.attended step⟩

theorem Sound.run (sound : s.Sound expected log)
    (ran : events.foldlM advance s = some t) : t.Sound expected (log ++ s.deeds events) := by
  induction events generalizing s log with
  | nil =>
    cases ran
    rw [deeds, List.append_nil]
    exact sound
  | cons e rest ih =>
    rw [List.foldlM_cons] at ran
    obtain ⟨u, moved, onward⟩ := Option.bind_eq_some_iff.mp ran
    have later := ih (sound.step (advance_sound moved)) onward
    rw [deeds, moved, ← List.append_assoc]
    exact later

-- What holds of a tracker and of all that has been done with it, in whatever order. The count falls with
-- every completion, one by one, and is what everybody is told who looks at it. A worker that panicked is
-- counted only once it is on record, and the first reason on record stays.
structure Faithful (expected : Nat) (log : List Deed) (s : Tracker) : Prop where
  outstanding : s.outstanding + counted log = expected
  told : ∀ r k before after, log = before ++ .tell r k :: after → k + counted before = expected
  above : ∀ n : Nat, s.completions[n]? = some .counting → 0 < s.outstanding
  once : ∀ n : Nat, log.count (.count n) ≤ 1
  done : ∀ n : Nat, s.completions[n]? = some .done → log.count (.count n) = 1
  held : ∀ n : Nat, s.completions[n]? = some .held → log.count (.count n) = 0
  blamed : ∀ n before after, log = before ++ .count n :: after → .begin n true ∈ before →
    .blame n ∈ before
  reason : s.signal.reason = (reasons log).head?
  returned : ∀ w : Nat, s.waiters[w]? = some .returned → s.outstanding = 0
  -- Whoever comes back has been preceded by everybody, and so by every record of a panic.
  preceded : ∀ w before after, log = before ++ .comeBack w :: after →
    counted before = expected ∧ ∀ n, .begin n true ∈ before → .blame n ∈ before
  rousing : ∀ w : Nat, s.waiters[w]? = some .asleep → s.outstanding = 0 → s.Rousing w

theorem counted_le (before after : List Deed) : counted before ≤ counted (before ++ after) := by
  unfold counted
  rw [List.countP_append]
  exact Nat.le_add_right _ _

theorem begun_le (before after : List Deed) : begun before ≤ begun (before ++ after) := by
  unfold begun
  rw [List.countP_append]
  exact Nat.le_add_right _ _

theorem Accounted.counted_le_begun (accounted : s.Accounted expected log) : counted log ≤ begun log := by
  rw [accounted.balance]
  exact Nat.le_add_right _ _

theorem Accounted.above (accounted : s.Accounted expected log) (few : begun log ≤ expected)
    (counting : s.completions[n]? = some .counting) : 0 < s.outstanding := by
  have own : 1 ≤ (s.completions.map Completion.pending).sum :=
    List.le_sum_of_mem (List.mem_map_of_mem (List.mem_of_getElem? counting))
  have balance := accounted.balance
  have outstanding := accounted.outstanding
  omega

-- Any number of completions up to those that are expected, any number of waiters and readers, and others
-- who trip the signal, all interleaved in any way.
theorem completes_faithfully (ran : events.foldlM advance (start expected) = some s)
    (few : begun (deeds (start expected) events) ≤ expected) :
    s.Faithful expected (deeds (start expected) events) := by
  have sound : s.Sound expected (deeds (start expected) events) := (start_sound expected).run ran
  generalize deeds (start expected) events = log at few sound
  have accounted := sound.accounted
  have all : counted log ≤ expected := Nat.le_trans accounted.counted_le_begun few
  have counted_once (n : Nat) (c : Completion) (found : s.completions[n]? = some c) :
      log.count (.count n) = c.hasCounted.toNat := by
    rw [accounted.once, found]
    rfl
  refine
    { outstanding := ?outstanding
      told := ?told
      above := fun n => accounted.above few
      once := fun n => accounted.once n ▸ Bool.toNat_le _
      done := fun n => counted_once n .done
      held := fun n => counted_once n .held
      blamed := fun n before after split => (accounted.grounded before _ after split).2
      reason := accounted.reason
      returned := fun w found => sound.attended .returned (List.mem_of_getElem? found)
      preceded := ?preceded
      rousing := fun w => sound.attended.rousing }
  case outstanding =>
    rw [accounted.outstanding]
    exact Nat.sub_add_cancel all
  case told =>
    intro r k before after split
    have seen : k = expected - counted before := accounted.grounded before _ after split
    have part : counted before ≤ counted log := split ▸ counted_le before _
    rw [seen]
    exact Nat.sub_add_cancel (Nat.le_trans part all)
  case preceded =>
    intro w before after split
    obtain ⟨enough, recorded⟩ := accounted.grounded before _ after split
    have part : counted before ≤ counted log := split ▸ counted_le before _
    have fewer : begun before ≤ begun log := split ▸ begun_le before _
    exact ⟨Nat.le_antisymm (Nat.le_trans part all) enough, recorded (Nat.le_trans fewer few)⟩

-- The worker of the first guard panics, a moment before somebody else fails; a worker without a guard leaves
-- next, and the other guard is dropped last. A waiter has gone to sleep before all of them, stirred and gone
-- to sleep again.
def lastToLeave : List Event :=
  [.guard, .guard, .wait, .await 0, .await 0, .await 0, .leave 0 true, .complete 0, .record .failed,
    .complete 0, .complete 0, .complete 0, .complete 0, .count, .stir 0, .complete 2, .ask, .complete 2,
    .complete 2, .await 0, .await 0, .await 0, .read 0, .read 0, .leave 1 false, .complete 1, .complete 1]

def lastDeeds : List Deed :=
  [.begin 0 true, .blame 0, .record .failed, .count 0, .begin 2 false, .count 2, .tell 0 1,
    .begin 1 false, .count 1]

theorem completes_faithfully_asleep :
    ∃ s, lastToLeave.foldlM advance (start 3) = some s ∧ deeds (start 3) lastToLeave = lastDeeds ∧
      begun lastDeeds ≤ 3 ∧ s.Faithful 3 lastDeeds ∧ s.signal.reason = some .workerPanicked ∧
      s.outstanding = 0 ∧ s.waiters = [.asleep] ∧ s.Rousing 0 := by
  have came : (lastToLeave.foldlM advance (start 3)).map
      (fun s => (s.signal.reason, s.outstanding, s.waiters)) =
      some (some .workerPanicked, 0, [.asleep]) := by decide
  obtain ⟨s, ran, equal⟩ := Option.map_eq_some_iff.mp came
  simp only [Prod.mk.injEq] at equal
  obtain ⟨reason, zero, asleep⟩ := equal
  have done : deeds (start 3) lastToLeave = lastDeeds := by decide
  have few : begun lastDeeds ≤ 3 := by decide
  have faithful : s.Faithful 3 lastDeeds := done ▸ completes_faithfully ran (done.symm ▸ few)
  have sleeper : s.waiters[0]? = some .asleep := by rw [asleep]; rfl
  exact ⟨s, ran, done, few, faithful, reason, zero, asleep, faithful.rousing 0 sleeper zero⟩

end TreeDigest.Tracker
