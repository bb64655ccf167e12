import Mathlib.Logic.ExistsUnique
import TreeDigest.Proofs.Cancel.Steps
namespace TreeDigest.Tokens

-- A call that recorded its reason before any other. It returns that it was the first, or will do so.
def Won (s : Tokens) (i c : Nat) : Prop :=
  s.calls[c]? = some (i, .recorded true) ∨ s.calls[c]? = some (i, .returned true)

def Event.reason? : Event → Option CancelReason
  | .trip _ r => some r
  | _ => none

def asked (events : List Event) : List CancelReason := events.filterMap Event.reason?

variable {s t : Tokens} {e : Event} {i c d : Nat} {r : CancelReason} {reasons : List CancelReason}

theorem Won.stays (won : s.Won i c) (step : Step s e t) : t.Won i c := by
  have inside : c < s.calls.length := by
    rcases won with here | here <;> exact (List.getElem?_eq_some_iff.mp here).1
  cases step with
  | trip live =>
    rcases won with here | here
    · exact .inl ((List.getElem?_append_left inside).trans here)
    · exact .inr ((List.getElem?_append_left inside).trans here)
  | @record c' j r called =>
    have other : c' ≠ c := by
      rintro rfl
      rcases won with here | here <;> cases called.symm.trans here
    rcases won with here | here
    · exact .inl ((List.getElem?_set_ne other).trans here)
    · exact .inr ((List.getElem?_set_ne other).trans here)
  | @wake c' j first recorded =>
    by_cases same : c' = c
    · subst same
      rcases won with here | here <;> cases recorded.symm.trans here
      exact .inr (List.getElem?_set_self inside)
    · rcases won with here | here
      · exact .inl ((List.getElem?_set_ne same).trans here)
      · exact .inr ((List.getElem?_set_ne same).trans here)
  | _ => exact won

theorem Step.won_cases (step : Step s e t) (placed : s.Placed) (won : t.Won i c) :
    s.Won i c ∨ ∃ r, e = .proceed c ∧ s.calls[c]? = some (i, .called r) ∧
      (s.signal i).isTripped = false ∧ (t.signal i).reason = some r := by
  rcases won with here | here
  · rcases step.call_cases placed here with old | ⟨_, _, -, -, made, -⟩ | ⟨r, own, called, first, after⟩ |
      ⟨_, -, done, -⟩
    · exact .inl (.inl old)
    · cases made
    · have quiet : (s.signal i).isTripped = false := by simpa using first
      exact .inr ⟨r, own, called, quiet, by rw [after, Signal.record_first quiet]⟩
    · cases done
  · rcases step.call_cases placed here with old | ⟨_, _, -, -, made, -⟩ | ⟨_, -, -, first, -⟩ |
      ⟨first, old, done, -⟩
    · exact .inl (.inr old)
    · cases made
    · cases first
    · cases done
      exact .inl (.inl old)

-- A call that has recorded a reason finds one there, and one that has returned has woken the waiters.
structure Told (s : Tokens) : Prop where
  recorded : ∀ (c i : Nat) (first : Bool), s.calls[c]? = some (i, .recorded first) →
    (s.signal i).isTripped = true
  returned : ∀ (c i : Nat) (first : Bool), s.calls[c]? = some (i, .returned first) →
    (s.signal i).woken = true

theorem told_empty : ({} : Tokens).Told := ⟨nofun, nofun⟩

theorem Told.step (told : s.Told) (placed : s.Placed) (step : Step s e t) : t.Told where
  recorded c i first later := by
    rcases step.call_cases placed later with old | ⟨_, _, -, -, made, -⟩ | ⟨_, -, -, -, after⟩ |
      ⟨_, -, done, -⟩
    · exact step.tripped_stays placed (told.recorded c i first old)
    · cases made
    · rw [after, Signal.record_isTripped]
    · cases done
  returned c i first later := by
    rcases step.call_cases placed later with old | ⟨_, _, -, -, made, -⟩ | ⟨_, -, -, done, -⟩ |
      ⟨_, recorded, -, after⟩
    · exact step.woken_stays placed (told.returned c i first old)
    · cases made
    · cases done
    · rw [after, Signal.wake_woken]
      exact told.recorded c i _ recorded

-- The calls on a signal, told by the reasons with which they were made: at most one of them was the first,
-- its reason is the one that is kept, and where no watchdog could record one, a call has.
structure Ranked (reasons : List CancelReason) (s : Tokens) : Prop where
  length : s.calls.length = reasons.length
  called : ∀ (c i : Nat) (r : CancelReason), s.calls[c]? = some (i, .called r) → reasons[c]? = some r
  reason : ∀ c i : Nat, s.Won i c → ∃ r, reasons[c]? = some r ∧ (s.signal i).reason = some r
  single : ∀ c d i : Nat, s.Won i c → s.Won i d → c = d
  first : ∀ i : Nat, i ∉ s.guarded → (s.signal i).isTripped = true → ∃ c, s.Won i c

theorem ranked_empty : ({} : Tokens).Ranked [] := by
  refine ⟨rfl, nofun, fun c i won => ?_, fun c d i won => ?_, nofun⟩ <;>
    rcases won with here | here <;> cases here

theorem Ranked.tripped (ranked : s.Ranked reasons) (won : s.Won i c) : (s.signal i).isTripped = true := by
  obtain ⟨r, -, kept⟩ := ranked.reason c i won
  exact Signal.isTripped_iff.mpr ⟨r, kept⟩

theorem Step.calls_length (step : Step s e t) :
    t.calls.length = s.calls.length + e.reason?.toList.length := by
  cases step with
  | trip live => exact List.length_append
  | record called => exact List.length_set
  | wake recorded => exact List.length_set
  | _ => rfl

theorem asked_stays {more : List CancelReason} (own : reasons[c]? = some r) :
    (reasons ++ more)[c]? = some r :=
  (List.getElem?_append_left (List.getElem?_eq_some_iff.mp own).1).trans own

theorem Ranked.first_step (ranked : s.Ranked reasons) (placed : s.Placed) (step : Step s e t)
    (unguarded : i ∉ t.guarded) (tripped : (t.signal i).isTripped = true) : ∃ c, t.Won i c := by
  have before : i ∉ s.guarded := by
    rcases step.guarded_cases with same | ⟨_, _, -, same⟩ <;> rw [same] at unguarded
    · exact unguarded
    · exact fun member => unguarded (List.mem_append_left _ member)
  have already (earlier : (s.signal i).isTripped = true) : ∃ c, t.Won i c := by
    obtain ⟨c, won⟩ := ranked.first i before earlier
    exact ⟨c, won.stays step⟩
  rcases step.signal_cases placed i with same | ⟨r, records, -⟩ | ⟨-, same⟩
  · exact already (same ▸ tripped)
  · by_cases quiet : (s.signal i).isTripped = true
    · exact already quiet
    · cases records with
      | @call c r called =>
        have inside : c < s.calls.length := (List.getElem?_eq_some_iff.mp called).1
        refine ⟨c, .inl ?_⟩
        cases step with
        | record own =>
          cases called.symm.trans own
          rw [List.getElem?_set_self inside, Bool.eq_false_iff.mpr quiet]
          rfl
        | wake own => cases called.symm.trans own
      | watchdog found guards recording =>
        exact absurd (guards ▸ List.mem_map_of_mem (List.mem_of_getElem? found)) before
  · rw [same, Signal.wake_isTripped] at tripped
    exact already tripped

theorem Ranked.step (ranked : s.Ranked reasons) (placed : s.Placed) (step : Step s e t) :
    t.Ranked (reasons ++ e.reason?.toList) where
  length := by rw [step.calls_length, ranked.length, List.length_append]
  called c i r later := by
    rcases step.call_cases placed later with old | ⟨h, q, rfl, last, made, -⟩ | ⟨_, -, -, done, -⟩ |
      ⟨_, -, done, -⟩
    · exact asked_stays (ranked.called c i r old)
    · cases made
      rw [last, ranked.length]
      exact List.getElem?_concat_length
    · cases done
    · cases done
  reason c i won := by
    rcases step.won_cases placed won with old | ⟨r, rfl, called, -, after⟩
    · obtain ⟨r, own, kept⟩ := ranked.reason c i old
      exact ⟨r, asked_stays own, step.reason_stays placed kept⟩
    · exact ⟨r, asked_stays (ranked.called c i r called), after⟩
  single c d i one other := by
    rcases step.won_cases placed one with old | ⟨_, moved, -, quiet, -⟩ <;>
      rcases step.won_cases placed other with old' | ⟨_, moved', -, quiet', -⟩
    · exact ranked.single c d i old old'
    · exact absurd (ranked.tripped old) (Bool.eq_false_iff.mp quiet')
    · exact absurd (ranked.tripped old') (Bool.eq_false_iff.mp quiet)
    · cases moved.symm.trans moved'
      rfl
  first i unguarded tripped := ranked.first_step placed step unguarded tripped

theorem Ranked.run {events : List Event} (ranked : s.Ranked reasons) (placed : s.Placed) (told : s.Told)
    (ran : events.foldlM advance s = some t) :
    t.Placed ∧ t.Told ∧ t.Ranked (reasons ++ asked events) := by
  induction events generalizing s reasons with
  | nil =>
    cases ran
    exact ⟨placed, told, (List.append_nil reasons).symm ▸ ranked⟩
  | cons e rest ih =>
    rw [List.foldlM_cons] at ran
    obtain ⟨u, moved, onward⟩ := Option.bind_eq_some_iff.mp ran
    have step := advance_sound moved
    have all : asked (e :: rest) = e.reason?.toList ++ asked rest := by
      cases own : e.reason? <;> simp [asked, own]
    rw [all, ← List.append_assoc]
    exact ih (ranked.step placed step) (placed.step step) (told.step placed step) onward

section Lasting
variable (path : Reaches s t)
include path

theorem Won.lasts (won : s.Won i c) : t.Won i c := by
  induction path with
  | here => exact won
  | step e path moved ih => exact ih.stays (advance_sound moved)

theorem Placed.lasts (placed : s.Placed) : t.Placed := by
  induction path with
  | here => exact placed
  | step e path moved ih => exact ih.step (advance_sound moved)

theorem Placed.reason_lasts (placed : s.Placed) (first : (s.signal i).reason = some r) :
    (t.signal i).reason = some r := by
  induction path with
  | here => exact first
  | step e path moved ih => exact (advance_sound moved).reason_stays (placed.lasts path) ih

theorem Placed.woken_lasts (placed : s.Placed) (woken : (s.signal i).woken = true) :
    (t.signal i).woken = true := by
  induction path with
  | here => exact woken
  | step e path moved ih => exact (advance_sound moved).woken_stays (placed.lasts path) ih

end Lasting

section Handles
variable {h : Nat} (live : s.signalOf? h = some i)
include live

theorem reason?_eq : s.reason? h = (s.signal i).reason := by
  rw [reason?, live, Option.bind_some]

theorem isDone_eq : s.isDone h = (s.signal i).woken := by
  have member : some i ∈ s.handles := List.mem_of_getElem? (Option.join_eq_some_iff.mp live)
  rw [isDone, live]
  simp [isReady, isKept, member]

end Handles

-- What holds of a signal and of the calls that trip it, in whatever order everything has happened. The
-- reasons are those with which the calls were made.
structure OneShot (reasons : List CancelReason) (s : Tokens) (i : Nat) : Prop where
  single : ∀ c d, s.Won i c → s.Won i d → c = d
  lasting : ∀ c t, s.Won i c → Reaches s t → t.Won i c
  -- Where no watchdog trips it too, one of the calls is the first as soon as any has returned.
  first : i ∉ s.guarded → ∀ (c : Nat) (b : Bool), s.calls[c]? = some (i, .returned b) → ∃ d, s.Won i d
  all : i ∉ s.guarded → (∃ call, (i, call) ∈ s.calls) →
    (∀ call, (i, call) ∈ s.calls → ∃ b, call = .returned b) →
    ∃! c : Nat, s.calls[c]? = some (i, .returned true)
  reason : ∀ c, s.Won i c → ∃ r, reasons[c]? = some r ∧
    ∀ t h, Reaches s t → t.signalOf? h = some i → t.reason? h = some r
  readable : ∀ h, s.signalOf? h = some i → s.isDone h = true → ∃ r, s.reason? h = some r
  visible : ∀ (c : Nat) (b : Bool) (t : Tokens) (h : Nat), s.calls[c]? = some (i, .returned b) →
    Reaches s t → t.signalOf? h = some i → t.isTripped h = true ∧ t.isDone h = true

theorem one_shot {events : List Event} (ran : events.foldlM advance {} = some s) (i : Nat) :
    s.OneShot (asked events) i := by
  obtain ⟨placed, told, ranked⟩ := ranked_empty.run placed_empty told_empty ran
  have first (unguarded : i ∉ s.guarded) (c : Nat) (b : Bool)
      (returned : s.calls[c]? = some (i, .returned b)) : ∃ d, s.Won i d :=
    ranked.first i unguarded (Signal.isTripped_of_woken (told.returned c i b returned))
  refine ⟨fun c d => ranked.single c d i, fun c t won path => won.lasts path, first, ?_, ?_, ?_, ?_⟩
  · intro unguarded ⟨call, member⟩ returned
    obtain ⟨c, found⟩ := List.getElem?_of_mem member
    obtain ⟨b, rfl⟩ := returned call member
    obtain ⟨d, won⟩ := first unguarded c b found
    refine ⟨d, ?_, fun d' other => ranked.single d' d i (.inr other) won⟩
    rcases won with recorded | done
    · obtain ⟨_, impossible⟩ := returned _ (List.mem_of_getElem? recorded)
      cases impossible
    · exact done
  · intro c won
    obtain ⟨r, own, kept⟩ := ranked.reason c i won
    refine ⟨r, own, fun t h path live => ?_⟩
    rw [reason?_eq live]
    exact placed.reason_lasts path kept
  · intro h live done
    rw [isDone_eq live] at done
    rw [reason?_eq live]
    exact Signal.isTripped_iff.mp (Signal.isTripped_of_woken done)
  · intro c b t h returned path live
    have woken := told.returned c i b returned
    obtain ⟨r, kept⟩ := Signal.isTripped_iff.mp (Signal.isTripped_of_woken woken)
    rw [isTripped, reason?_eq live, placed.reason_lasts path kept, isDone_eq live]
    exact ⟨rfl, placed.woken_lasts path woken⟩

-- Two clones of one token are tripped at once. The call that came too late returns before the other one
-- has woken anybody.
def loserFirst : List Event :=
  [.create, .clone 0, .trip 0 .requested, .trip 1 .timedOut, .proceed 1, .proceed 0, .proceed 0]

theorem one_shot_loserFirst :
    ∃ s, loserFirst.foldlM advance {} = some s ∧ s.OneShot [.requested, .timedOut] 0 ∧ 0 ∉ s.guarded ∧
      s.calls = [(0, .returned false), (0, .recorded true)] ∧ s.Won 0 1 ∧
      s.reason? 0 = some .timedOut ∧ s.reason? 1 = some .timedOut ∧ s.isDone 1 = true :=
  ⟨_, rfl, one_shot (show loserFirst.foldlM advance {} = some _ from rfl) 0, List.not_mem_nil, rfl, .inl rfl,
    rfl, rfl, rfl⟩

end TreeDigest.Tokens
