import TreeDigest.Cancel.Calls
import TreeDigest.Proofs.Folds
namespace TreeDigest

namespace Signal
variable {s : Signal} {r q : CancelReason}

@[simp] theorem record_isTripped : (s.record r).isTripped = true := by
  cases reason : s.reason <;> simp [record, isTripped, reason]

@[simp] theorem wake_isTripped : s.wake.isTripped = s.isTripped := rfl

@[simp] theorem record_woken : (s.record r).woken = s.woken := rfl

@[simp] theorem wake_woken : s.wake.woken = s.isTripped := rfl

@[simp] theorem wake_reason : s.wake.reason = s.reason := rfl

theorem record_reason (first : s.reason = some q) : (s.record r).reason = some q := by
  simp [record, first]

theorem record_first (quiet : s.isTripped = false) : (s.record r).reason = some r := by
  have none : s.reason = none := by simpa [isTripped] using quiet
  simp [record, none]

theorem isTripped_iff : s.isTripped = true ↔ ∃ r, s.reason = some r := by
  simp [isTripped, Option.isSome_iff_exists]

end Signal

namespace Tokens

inductive Step (s : Tokens) : Event → Tokens → Prop where
  | create : Step s .create
      { s with signals := s.signals ++ [{}], handles := s.handles ++ [some s.signals.length] }
  | clone {h i : Nat} (live : s.signalOf? h = some i) :
      Step s (.clone h) { s with handles := s.handles ++ [some i] }
  | drop {h i : Nat} (live : s.signalOf? h = some i) :
      Step s (.drop h) { s with handles := s.handles.set h none }
  | trip {h i : Nat} {r : CancelReason} (live : s.signalOf? h = some i) :
      Step s (.trip h r) { s with calls := s.calls ++ [(i, .called r)] }
  | record {c i : Nat} {r : CancelReason} (called : s.calls[c]? = some (i, .called r)) :
      Step s (.proceed c) { s.modifySignal i (·.record r) with
        calls := s.calls.set c (i, .recorded (!(s.signal i).isTripped)) }
  | wake {c i : Nat} {first : Bool} (recorded : s.calls[c]? = some (i, .recorded first)) :
      Step s (.proceed c) { s.modifySignal i (·.wake) with
        calls := s.calls.set c (i, .returned first) }
  | watch {h i : Nat} {external e : Option Nat} {timeout : Option Duration}
      (live : s.signalOf? h = some i) (linked : external.map s.signalOf? = e.map some)
      (watches : e ≠ none ∨ timeout ≠ none) :
      Step s (.watch h external timeout) { s with watchdogs := s.watchdogs ++
        [⟨i, e, timeout.map fun t => s.clock + t.nanoseconds, .watching⟩] }
  | leave {w : Nat} {d : Watchdog} (found : s.watchdogs[w]? = some d) (watching : d.phase = .watching)
      (ready : s.isReady d.internal = true) : Step s (.leave w) (s.setWatch w .exited)
  | relay {w e : Nat} {d : Watchdog} (found : s.watchdogs[w]? = some d) (linked : d.external = some e)
      (watching : d.phase = .watching) (ready : s.isReady e = true) :
      Step s (.relay w) (s.setWatch w (.recording .requested))
  | expire {w : Nat} {d : Watchdog} (found : s.watchdogs[w]? = some d) (watching : d.phase = .watching)
      (due : s.isDue d.deadline = true) : Step s (.expire w) (s.setWatch w (.recording .timedOut))
  | barkRecord {w : Nat} {d : Watchdog} {r : CancelReason} (found : s.watchdogs[w]? = some d)
      (recording : d.phase = .recording r) :
      Step s (.bark w) ((s.modifySignal d.internal (·.record r)).setWatch w .waking)
  | barkWake {w : Nat} {d : Watchdog} (found : s.watchdogs[w]? = some d) (waking : d.phase = .waking) :
      Step s (.bark w) ((s.modifySignal d.internal (·.wake)).setWatch w .exited)
  | tick : Step s .tick { s with clock := s.clock + 1 }

variable {s t : Tokens} {e : Event}

theorem proceed_sound {c : Nat} (moved : s.advance (.proceed c) = some t) : Step s (.proceed c) t := by
  obtain ⟨⟨i, call⟩, found, went⟩ := Option.bind_eq_some_iff.mp moved
  cases call with
  | called r => cases went; exact .record found
  | recorded first => cases went; exact .wake found
  | returned first => cases went

theorem watch_sound {h : Nat} {external : Option Nat} {timeout : Option Duration}
    (moved : s.advance (.watch h external timeout) = some t) : Step s (.watch h external timeout) t := by
  obtain ⟨i, live, more⟩ := Option.bind_eq_some_iff.mp moved
  cases external with
  | none =>
    cases timeout with
    | none => cases more
    | some time => cases more; exact .watch live rfl (.inr nofun)
  | some g =>
    obtain ⟨e, linked, went⟩ := Option.bind_eq_some_iff.mp more
    obtain ⟨j, found, rfl⟩ := Option.map_eq_some_iff.mp linked
    cases went
    exact .watch live (congrArg some found) (.inl nofun)

theorem bark_sound {w : Nat} (moved : s.advance (.bark w) = some t) : Step s (.bark w) t := by
  obtain ⟨d, found, went⟩ := Option.bind_eq_some_iff.mp moved
  unfold barkStep at went
  split at went
  · rename_i r recording; cases went; exact .barkRecord found recording
  · rename_i waking; cases went; exact .barkWake found waking
  · cases went

theorem advance_sound (moved : s.advance e = some t) : Step s e t := by
  cases e with
  | create => cases moved; exact .create
  | clone h => obtain ⟨i, live, rfl⟩ := Option.map_eq_some_iff.mp moved; exact .clone live
  | drop h => obtain ⟨i, live, rfl⟩ := Option.map_eq_some_iff.mp moved; exact .drop live
  | trip h r => obtain ⟨i, live, rfl⟩ := Option.map_eq_some_iff.mp moved; exact .trip live
  | proceed c => exact proceed_sound moved
  | watch h external timeout => exact watch_sound moved
  | leave w =>
    obtain ⟨d, found, went⟩ := Option.bind_eq_some_iff.mp moved
    split at went
    · rename_i enabled
      cases went
      simp only [Bool.and_eq_true, decide_eq_true_eq] at enabled
      exact .leave found enabled.1 enabled.2
    · cases went
  | relay w =>
    obtain ⟨d, found, more⟩ := Option.bind_eq_some_iff.mp moved
    obtain ⟨e, linked, went⟩ := Option.bind_eq_some_iff.mp more
    split at went
    · rename_i enabled
      cases went
      simp only [Bool.and_eq_true, decide_eq_true_eq] at enabled
      exact .relay found linked enabled.1 enabled.2
    · cases went
  | expire w =>
    obtain ⟨d, found, went⟩ := Option.bind_eq_some_iff.mp moved
    split at went
    · rename_i enabled
      cases went
      simp only [Bool.and_eq_true, decide_eq_true_eq] at enabled
      exact .expire found enabled.1 enabled.2
    · cases went
  | bark w => exact bark_sound moved
  | tick => cases moved; exact .tick

theorem signal_snoc (signals : List Signal) (i : Nat) :
    (signals ++ [({} : Signal)]).getD i {} = signals.getD i {} := by
  rw [List.getD_eq_getElem?_getD, List.getD_eq_getElem?_getD, List.getElem?_append]
  split
  · rfl
  · rename_i beyond
    rw [List.getElem?_eq_none (Nat.le_of_not_lt beyond)]
    cases i - signals.length <;> rfl

theorem signal_modify {i : Nat} {f : Signal → Signal} (inside : i < s.signals.length) (j : Nat) :
    (s.modifySignal i f).signal j = if i = j then f (s.signal j) else s.signal j := by
  unfold signal modifySignal
  rw [List.getD_eq_getElem?_getD, List.getD_eq_getElem?_getD, List.getElem?_modify]
  split
  · rename_i same
    subst same
    rw [List.getElem?_eq_getElem inside]
    rfl
  · cases s.signals[j]? <;> rfl

def guarded (s : Tokens) : List Nat := s.watchdogs.map (·.internal)

structure Placed (s : Tokens) : Prop where
  handles : ∀ {h i : Nat}, s.signalOf? h = some i → i < s.signals.length
  calls : ∀ {c i : Nat} {call : TripCall}, s.calls[c]? = some (i, call) → i < s.signals.length
  guarded : ∀ i ∈ s.guarded, i < s.signals.length

theorem Placed.watchdog {w : Nat} {d : Watchdog} (placed : s.Placed) (found : s.watchdogs[w]? = some d) :
    d.internal < s.signals.length :=
  placed.guarded _ (List.mem_map_of_mem (List.mem_of_getElem? found))

-- Who records a reason in a signal with a step, and which one.
inductive Records (s : Tokens) (i : Nat) : Event → CancelReason → Prop where
  | call {c : Nat} {r : CancelReason} (called : s.calls[c]? = some (i, .called r)) :
      Records s i (.proceed c) r
  | watchdog {w : Nat} {d : Watchdog} {r : CancelReason} (found : s.watchdogs[w]? = some d)
      (guards : d.internal = i) (recording : d.phase = .recording r) : Records s i (.bark w) r

inductive Wakes (s : Tokens) (i : Nat) : Event → Prop where
  | call {c : Nat} {first : Bool} (recorded : s.calls[c]? = some (i, .recorded first)) :
      Wakes s i (.proceed c)
  | watchdog {w : Nat} {d : Watchdog} (found : s.watchdogs[w]? = some d) (guards : d.internal = i)
      (waking : d.phase = .waking) : Wakes s i (.bark w)

theorem Step.signal_cases (step : Step s e t) (placed : s.Placed) (i : Nat) :
    t.signal i = s.signal i ∨ (∃ r, s.Records i e r ∧ t.signal i = (s.signal i).record r) ∨
      (s.Wakes i e ∧ t.signal i = (s.signal i).wake) := by
  have modified {j : Nat} (inside : j < s.signals.length) (f : Signal → Signal) :
      (s.modifySignal j f).signal i = s.signal i ∨
        j = i ∧ (s.modifySignal j f).signal i = f (s.signal i) := by
    rw [signal_modify inside]
    split
    · rename_i same; exact .inr ⟨same, rfl⟩
    · exact .inl rfl
  cases step with
  | create => exact .inl (signal_snoc _ i)
  | record called =>
    rcases modified (placed.calls called) (·.record _) with other | ⟨rfl, own⟩
    · exact .inl other
    · exact .inr (.inl ⟨_, .call called, own⟩)
  | wake recorded =>
    rcases modified (placed.calls recorded) (·.wake) with other | ⟨rfl, own⟩
    · exact .inl other
    · exact .inr (.inr ⟨.call recorded, own⟩)
  | barkRecord found recording =>
    rcases modified (placed.watchdog found) (·.record _) with other | ⟨same, own⟩
    · exact .inl other
    · exact .inr (.inl ⟨_, .watchdog found same recording, own⟩)
  | barkWake found waking =>
    rcases modified (placed.watchdog found) (·.wake) with other | ⟨same, own⟩
    · exact .inl other
    · exact .inr (.inr ⟨.watchdog found same waking, own⟩)
  | _ => exact .inl rfl

section Kept
variable {i : Nat} (step : Step s e t) (placed : s.Placed)
include step placed

theorem Step.reason_stays {r : CancelReason} (first : (s.signal i).reason = some r) :
    (t.signal i).reason = some r := by
  rcases step.signal_cases placed i with same | ⟨_, -, same⟩ | ⟨-, same⟩ <;> rw [same]
  · exact first
  · exact Signal.record_reason first
  · exact first

theorem Step.tripped_stays (tripped : (s.signal i).isTripped = true) :
    (t.signal i).isTripped = true := by
  obtain ⟨r, first⟩ := Signal.isTripped_iff.mp tripped
  exact Signal.isTripped_iff.mpr ⟨r, step.reason_stays placed first⟩

theorem Step.woken_stays (woken : (s.signal i).woken = true) : (t.signal i).woken = true := by
  rcases step.signal_cases placed i with same | ⟨_, -, same⟩ | ⟨-, same⟩ <;> rw [same]
  · exact woken
  · exact woken
  · exact Signal.isTripped_of_woken woken

end Kept

theorem Step.call_cases {c i : Nat} {call : TripCall} (step : Step s e t) (placed : s.Placed)
    (later : t.calls[c]? = some (i, call)) :
    s.calls[c]? = some (i, call) ∨
    (∃ h r, e = .trip h r ∧ c = s.calls.length ∧ call = .called r ∧ i < s.signals.length) ∨
    (∃ r, e = .proceed c ∧ s.calls[c]? = some (i, .called r) ∧
      call = .recorded (!(s.signal i).isTripped) ∧ t.signal i = (s.signal i).record r) ∨
    (∃ first, s.calls[c]? = some (i, .recorded first) ∧ call = .returned first ∧
      t.signal i = (s.signal i).wake) := by
  have replaced {d j : Nat} {own : TripCall} (set : (s.calls.set d (j, own))[c]? = some (i, call)) :
      s.calls[c]? = some (i, call) ∨ d = c ∧ j = i ∧ own = call := by
    by_cases same : d = c
    · subst same
      obtain ⟨_, -, equal⟩ := Option.map_eq_some_iff.mp (List.getElem?_set_self'.symm.trans set)
      cases equal
      exact .inr ⟨rfl, rfl, rfl⟩
    · rw [List.getElem?_set_ne same] at set
      exact .inl set
  cases step with
  | @trip h j r live =>
    rw [List.getElem?_append] at later
    split at later
    · exact .inl later
    · rename_i beyond
      rw [List.getElem?_singleton] at later
      split at later
      · rename_i last
        cases later
        exact .inr (.inl ⟨h, r, rfl, by omega, rfl, placed.handles live⟩)
      · cases later
  | @record d j r called =>
    rcases replaced later with old | ⟨rfl, rfl, rfl⟩
    · exact .inl old
    · refine .inr (.inr (.inl ⟨r, rfl, called, rfl, ?_⟩))
      exact (signal_modify (placed.calls called) j).trans (if_pos rfl)
  | @wake d j first recorded =>
    rcases replaced later with old | ⟨rfl, rfl, rfl⟩
    · exact .inl old
    · refine .inr (.inr (.inr ⟨first, recorded, rfl, ?_⟩))
      exact (signal_modify (placed.calls recorded) j).trans (if_pos rfl)
  | _ => exact .inl later

theorem watchdog_set {w v : Nat} {phase : WatchPhase} {d : Watchdog}
    (later : (s.setWatch w phase).watchdogs[v]? = some d) :
    s.watchdogs[v]? = some d ∨
      ∃ own, w = v ∧ s.watchdogs[w]? = some own ∧ d = { own with phase } := by
  have changed : (s.watchdogs.modify w fun own => { own with phase })[v]? = some d := later
  rw [List.getElem?_modify] at changed
  split at changed
  · rename_i same
    subst same
    obtain ⟨own, found, rfl⟩ := Option.map_eq_some_iff.mp changed
    exact .inr ⟨own, rfl, found, rfl⟩
  · obtain ⟨own, found, rfl⟩ := Option.map_eq_some_iff.mp changed
    exact .inl found

theorem guarded_set (w : Nat) (phase : WatchPhase) : (s.setWatch w phase).guarded = s.guarded := by
  unfold guarded setWatch
  apply List.ext_getElem?
  intro v
  rw [List.getElem?_map, List.getElem?_map, List.getElem?_modify]
  cases s.watchdogs[v]? with
  | none => rfl
  | some d => simp only [Option.map_eq_map, Option.map_some]; split <;> rfl

theorem Step.guarded_cases (step : Step s e t) :
    t.guarded = s.guarded ∨ ∃ h i, s.signalOf? h = some i ∧ t.guarded = s.guarded ++ [i] := by
  cases step with
  | watch live linked watches => exact .inr ⟨_, _, live, List.map_append ..⟩
  | leave | relay | expire | barkRecord | barkWake => exact .inl (guarded_set _ _)
  | _ => exact .inl rfl

theorem Step.signals_le (step : Step s e t) : s.signals.length ≤ t.signals.length := by
  cases step with
  | create => simp
  | record | wake => simp [modifySignal]
  | barkRecord | barkWake => simp [setWatch, modifySignal]
  | _ => exact Nat.le_refl _

theorem Step.handle_cases {h i : Nat} (step : Step s e t) (later : t.signalOf? h = some i) :
    (∃ g, s.signalOf? g = some i) ∨ i = s.signals.length ∧ i < t.signals.length := by
  unfold signalOf? at later
  cases step with
  | create =>
    rw [List.getElem?_append] at later
    split at later
    · exact .inl ⟨h, later⟩
    · rw [List.getElem?_singleton] at later
      split at later
      · cases later
        exact .inr ⟨rfl, by simp⟩
      · cases later
  | @clone g j live =>
    rw [List.getElem?_append] at later
    split at later
    · exact .inl ⟨h, later⟩
    · rw [List.getElem?_singleton] at later
      split at later
      · cases later
        exact .inl ⟨g, live⟩
      · cases later
  | @drop g j live =>
    rw [List.getElem?_set] at later
    split at later
    · split at later <;> cases later
    · exact .inl ⟨h, later⟩
  | _ => exact .inl ⟨h, later⟩

theorem placed_empty : ({} : Tokens).Placed := ⟨nofun, nofun, nofun⟩

theorem Placed.step (placed : s.Placed) (step : Step s e t) : t.Placed := by
  have grown := step.signals_le
  refine ⟨fun later => ?_, fun later => ?_, ?_⟩
  · rcases step.handle_cases later with ⟨g, live⟩ | ⟨-, fresh⟩
    · exact Nat.lt_of_lt_of_le (placed.handles live) grown
    · exact fresh
  · rcases step.call_cases placed later with old | ⟨_, _, -, -, -, inside⟩ | ⟨_, -, old, -⟩ | ⟨_, old, -⟩
    · exact Nat.lt_of_lt_of_le (placed.calls old) grown
    · exact Nat.lt_of_lt_of_le inside grown
    · exact Nat.lt_of_lt_of_le (placed.calls old) grown
    · exact Nat.lt_of_lt_of_le (placed.calls old) grown
  · intro i member
    rcases step.guarded_cases with same | ⟨_, _, live, same⟩ <;> rw [same] at member
    · exact Nat.lt_of_lt_of_le (placed.guarded i member) grown
    · rcases List.mem_append.mp member with old | new
      · exact Nat.lt_of_lt_of_le (placed.guarded i old) grown
      · rw [List.mem_singleton.mp new]
        exact Nat.lt_of_lt_of_le (placed.handles live) grown

end Tokens
end TreeDigest
