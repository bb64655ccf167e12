import TreeDigest.Proofs.Sums
import TreeDigest.Proofs.Tracker.Deeds
import TreeDigest.Proofs.Tracker.Waking
namespace TreeDigest

namespace Completion

def hasCounted : Completion → Bool
  | .notifying | .releasing | .done => true
  | _ => false

def pending : Completion → Nat
  | .recording | .waking | .arriving | .counting => 1
  | _ => 0

theorem begun_hasCounted (panicking : Bool) : (begun panicking).hasCounted = false := by
  cases panicking <;> rfl

theorem begun_pending (panicking : Bool) : (begun panicking).pending = 1 := by
  cases panicking <;> rfl

theorem after_hasCounted (left : Nat) : (after left).hasCounted = true := by
  unfold after
  split <;> rfl

theorem after_pending (left : Nat) : (after left).pending = 0 := by
  unfold after
  split <;> rfl

end Completion

namespace Tracker

structure Accounted (expected : Nat) (log : List Deed) (s : Tracker) : Prop where
  outstanding : s.outstanding = expected - counted log
  balance : begun log = counted log + (s.completions.map Completion.pending).sum
  once : ∀ n : Nat, log.count (.count n) = (s.completions[n]?.any Completion.hasCounted).toNat
  blamed : ∀ n : Nat, .begin n true ∈ log → s.completions[n]? = some .recording ∨ .blame n ∈ log
  reason : s.signal.reason = (reasons log).head?
  grounded : Grounded expected log

structure Kept (s t : Tracker) : Prop where
  outstanding : t.outstanding = s.outstanding
  counted : ∀ n : Nat,
    t.completions[n]?.any Completion.hasCounted = s.completions[n]?.any Completion.hasCounted
  recording : ∀ n : Nat, s.completions[n]? = some .recording → t.completions[n]? = some .recording
  reason : t.signal.reason = s.signal.reason

structure Still (s t : Tracker) : Prop extends Kept s t where
  pending : (t.completions.map Completion.pending).sum = (s.completions.map Completion.pending).sum

variable {s t : Tracker} {e : Event} {d : Deed} {log : List Deed} {expected n : Nat} {c x : Completion}

theorem pending_set (found : s.completions[n]? = some c) :
    ((s.completions.set n x).map Completion.pending).sum + c.pending =
      (s.completions.map Completion.pending).sum + x.pending :=
  sum_map_set found

theorem pending_concat :
    ((s.completions ++ [x]).map Completion.pending).sum =
      (s.completions.map Completion.pending).sum + x.pending := by
  simp

theorem Kept.concat (outstanding : t.outstanding = s.outstanding)
    (completions : t.completions = s.completions ++ [x]) (counted : x.hasCounted = false)
    (reason : t.signal.reason = s.signal.reason) : Kept s t where
  outstanding := outstanding
  counted _ := by rw [completions]; exact any_concat counted
  recording _ here := by rw [completions]; exact getElem?_concat here
  reason := reason

theorem Kept.move (found : s.completions[n]? = some c) (other : c ≠ .recording)
    (completions : t.completions = s.completions.set n x) (counted : x.hasCounted = c.hasCounted)
    (outstanding : t.outstanding = s.outstanding) (reason : t.signal.reason = s.signal.reason) :
    Kept s t where
  outstanding := outstanding
  counted _ := by rw [completions]; exact any_set_alike found counted
  recording _ here := by rw [completions]; exact getElem?_set_other found here other
  reason := reason

theorem Still.move (found : s.completions[n]? = some c) (kept : Kept s t)
    (completions : t.completions = s.completions.set n x) (pending : x.pending = c.pending) :
    Still s t := by
  refine ⟨kept, ?_⟩
  have moved := pending_set (x := x) found
  rw [completions]
  omega

theorem Still.rest (outstanding : t.outstanding = s.outstanding)
    (completions : t.completions = s.completions) (reason : t.signal.reason = s.signal.reason) :
    Still s t where
  outstanding := outstanding
  counted _ := by rw [completions]
  recording _ here := by rw [completions]; exact here
  reason := reason
  pending := by rw [completions]

theorem start_accounted (expected : Nat) : (start expected).Accounted expected [] where
  outstanding := rfl
  balance := rfl
  once _ := rfl
  blamed := nofun
  reason := rfl
  grounded before d after split := by
    cases before <;> cases split

theorem Accounted.still (accounted : s.Accounted expected log) (still : Still s t) :
    t.Accounted expected log where
  outstanding := still.outstanding.trans accounted.outstanding
  balance := still.pending ▸ accounted.balance
  once n := (accounted.once n).trans (congrArg Bool.toNat (still.counted n).symm)
  blamed n started := (accounted.blamed n started).imp_left (still.recording n)
  reason := still.reason.trans accounted.reason
  grounded := accounted.grounded

theorem Accounted.add (accounted : s.Accounted expected log) (grounded : d.Grounded expected log)
    (begins : d.isBegin = false) (counts : d.isCount = false) (reason : d.reason? = none) :
    s.Accounted expected (log ++ [d]) where
  outstanding := by rw [counted_concat, counts, accounted.outstanding]; rfl
  balance := by rw [begun_concat, counted_concat, begins, counts]; exact accounted.balance
  once n := by
    have other : d ≠ .count n := by
      rintro rfl
      cases counts
    simp [List.count_append, other, accounted.once]
  blamed n started := by
    have other : d ≠ .begin n true := by
      rintro rfl
      cases begins
    have old : .begin n true ∈ log := by simpa [Ne.symm other] using started
    exact (accounted.blamed n old).imp_right (List.mem_append_left _)
  reason := by rw [reasons_concat, reason, Option.or_none, accounted.reason]
  grounded := accounted.grounded.snoc grounded

theorem Accounted.begins {panicking : Bool} (accounted : s.Accounted expected log) (kept : Kept s t)
    (pending : (t.completions.map Completion.pending).sum = (s.completions.map Completion.pending).sum + 1)
    (own : panicking = true → t.completions[n]? = some .recording) :
    t.Accounted expected (log ++ [Deed.begin n panicking]) where
  outstanding := by
    rw [counted_concat, kept.outstanding, accounted.outstanding]
    rfl
  balance := by
    rw [begun_concat, counted_concat, accounted.balance, pending]
    exact Nat.add_assoc ..
  once m := by simp [List.count_append, accounted.once, kept.counted]
  blamed m started := by
    rcases List.mem_append.mp started with old | new
    · exact (accounted.blamed m old).imp (kept.recording m) (List.mem_append_left _)
    · cases List.mem_singleton.mp new
      exact .inl (own rfl)
  reason := by rw [reasons_concat, kept.reason, accounted.reason]; exact (Option.or_none ..).symm
  grounded := accounted.grounded.snoc trivial

theorem Accounted.leaves {panicking : Bool} (accounted : s.Accounted expected log)
    (held : s.completions[n]? = some .held) :
    (s.setCompletion n (.begun panicking)).Accounted expected (log ++ [Deed.begin n panicking]) := by
  have moved := pending_set (x := .begun panicking) held
  rw [Completion.begun_pending] at moved
  have kept : Kept s (s.setCompletion n (.begun panicking)) :=
    .move held nofun rfl (Completion.begun_hasCounted panicking) rfl rfl
  refine accounted.begins kept moved ?_
  intro panicked
  rw [panicked]
  exact List.getElem?_set_self (List.getElem?_eq_some_iff.mp held).1

theorem Accounted.blames (accounted : s.Accounted expected log)
    (recording : s.completions[n]? = some .recording) :
    ({ s with signal := s.signal.record .workerPanicked }.setCompletion n .waking).Accounted expected
      (log ++ [Deed.blame n]) where
  outstanding := by rw [counted_concat]; exact accounted.outstanding
  balance := by
    have moved := pending_set (x := .waking) recording
    rw [begun_concat, counted_concat]
    exact accounted.balance.trans (congrArg _ (Nat.add_right_cancel moved).symm)
  once m := by
    have same : (s.completions.set n .waking)[m]?.any Completion.hasCounted =
        s.completions[m]?.any Completion.hasCounted := any_set_alike recording rfl
    simp [List.count_append, accounted.once, setCompletion, same]
  blamed m started := by
    have old : .begin m true ∈ log := by simpa using started
    rcases accounted.blamed m old with here | already
    · by_cases same : n = m
      · subst same
        exact .inr List.mem_concat_self
      · exact .inl ((List.getElem?_set_ne same).trans here)
    · exact .inr (List.mem_append_left _ already)
  reason := by rw [reasons_concat, ← accounted.reason]; rfl
  grounded := accounted.grounded.snoc trivial

theorem Accounted.counts (accounted : s.Accounted expected log)
    (counting : s.completions[n]? = some .counting) :
    ({ s with outstanding := s.outstanding - 1 }.setCompletion n
      (.after (s.outstanding - 1))).Accounted expected (log ++ [Deed.count n]) where
  outstanding := by
    rw [counted_concat, ← Nat.sub_sub, ← accounted.outstanding]
    rfl
  balance := by
    have moved := pending_set (x := .after (s.outstanding - 1)) counting
    rw [Completion.after_pending, Nat.add_zero] at moved
    rw [begun_concat, counted_concat, accounted.balance, ← moved]
    exact (Nat.add_assoc ..).symm.trans (Nat.add_right_comm ..)
  once m := by
    rw [List.count_append, accounted.once, setCompletion, any_set counting,
      Completion.after_hasCounted]
    by_cases same : m = n
    · subst same
      simp [counting, Completion.hasCounted]
    · simp [same, Ne.symm same]
  blamed m started := by
    have old : .begin m true ∈ log := by simpa using started
    refine (accounted.blamed m old).imp (fun here => ?_) (List.mem_append_left _)
    exact getElem?_set_other counting here (by decide)
  reason := by rw [reasons_concat, ← accounted.reason]; exact (Option.or_none ..).symm
  grounded := by
    refine accounted.grounded.snoc ⟨?_, fun started => ?_⟩
    · rw [← List.count_eq_zero, accounted.once, counting]
      rfl
    · rcases accounted.blamed n started with recording | already
      · cases counting.symm.trans recording
      · exact already

theorem Accounted.records {r : CancelReason} (accounted : s.Accounted expected log) :
    ({ s with signal := s.signal.record r } : Tracker).Accounted expected (log ++ [Deed.record r]) where
  outstanding := by rw [counted_concat]; exact accounted.outstanding
  balance := by rw [begun_concat, counted_concat]; exact accounted.balance
  once m := by simp [List.count_append, accounted.once]
  blamed m started := by
    have old : .begin m true ∈ log := by simpa using started
    exact (accounted.blamed m old).imp_right (List.mem_append_left _)
  reason := by rw [reasons_concat, ← accounted.reason]; rfl
  grounded := accounted.grounded.snoc trivial

theorem Accounted.comesBack (accounted : s.Accounted expected log) (zero : s.outstanding = 0) (w : Nat) :
    s.Accounted expected (log ++ [Deed.comeBack w]) := by
  have all : expected ≤ counted log := by
    apply Nat.le_of_sub_eq_zero
    rw [← accounted.outstanding, zero]
  refine accounted.add ⟨all, fun few n started => ?_⟩ rfl rfl rfl
  rcases accounted.blamed n started with recording | already
  · have unfinished : 1 ≤ (s.completions.map Completion.pending).sum :=
      List.le_sum_of_mem (List.mem_map_of_mem (List.mem_of_getElem? recording))
    have balance := accounted.balance
    omega
  · exact already

theorem Accounted.silent (accounted : s.Accounted expected log) (still : Still s t)
    (none : s.deed? e = none) : t.Accounted expected (log ++ (s.deed? e).toList) := by
  rw [none, Option.toList_none, List.append_nil]
  exact accounted.still still

theorem Accounted.step (accounted : s.Accounted expected log) (attended : s.Attended)
    (step : Step s e t) : t.Accounted expected (log ++ (s.deed? e).toList) := by
  cases step with
  | guard => exact accounted.silent ⟨.concat rfl rfl rfl rfl, pending_concat⟩ rfl
  | leave held => exact accounted.leaves held
  | count =>
    exact accounted.begins (.concat rfl rfl rfl rfl) pending_concat nofun
  | blame recording =>
    rw [deed?, recording]
    exact accounted.blames recording
  | alarm found | enter found | notify found | release found =>
    refine accounted.silent (.move found (.move found nofun rfl rfl rfl rfl) rfl rfl) ?_
    rw [deed?, found]
  | countDown counting =>
    rw [deed?, counting]
    exact accounted.counts counting
  | ask | wait | stir | wake => exact accounted.silent (.rest rfl rfl rfl) rfl
  | look found | watch found | see found | sleep found =>
    refine accounted.silent (.rest rfl rfl rfl) ?_
    rw [deed?, found]
    rfl
  | @tell n looking =>
    have told : (Deed.tell n s.outstanding).Grounded expected log := accounted.outstanding
    rw [deed?, if_pos looking]
    exact (accounted.add told rfl rfl rfl).still (.rest rfl rfl rfl)
  | @comeBack n leaving =>
    have zero : s.outstanding = 0 := attended _ (List.mem_of_getElem? leaving)
    rw [deed?, if_pos leaving]
    exact (accounted.comesBack zero n).still (.rest rfl rfl rfl)
  | record => exact accounted.records

end Tracker
end TreeDigest
