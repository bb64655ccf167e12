import TreeDigest.Proofs.Cancel.OneShot
namespace TreeDigest.Tokens

variable {s t u v : Tokens} {e : Event} {d : Watchdog} {h i w : Nat} {r : CancelReason}
  {external : Option Nat} {timeout : Option Duration} {phase : WatchPhase}

theorem isKept_iff : s.isKept i = true ↔ (∃ h, s.signalOf? h = some i) ∨
    ∃ (w : Nat) (d : Watchdog), s.watchdogs[w]? = some d ∧ d.internal = i ∧ d.phase ≠ .exited := by
  unfold isKept signalOf?
  rw [Bool.or_eq_true, List.contains_iff_mem, List.any_eq_true]
  simp only [List.mem_iff_getElem?, Option.join_eq_some_iff, Bool.and_eq_true, beq_iff_eq, bne_iff_ne]
  constructor
  · rintro (handle | ⟨d, ⟨w, found⟩, guards⟩)
    · exact .inl handle
    · exact .inr ⟨w, d, found, guards⟩
  · rintro (handle | ⟨w, d, found, guards⟩)
    · exact .inl handle
    · exact .inr ⟨d, ⟨w, found⟩, guards⟩

inductive Turn (s : Tokens) (d : Watchdog) : WatchPhase → Prop where
  | leave (watching : d.phase = .watching) : Turn s d .exited
  | relay {e : Nat} (watching : d.phase = .watching) (linked : d.external = some e)
      (ready : s.isReady e = true) : Turn s d (.recording .requested)
  | expire (watching : d.phase = .watching) (due : s.isDue d.deadline = true) :
      Turn s d (.recording .timedOut)
  | record {r : CancelReason} (recording : d.phase = .recording r) : Turn s d .waking
  | wake (waking : d.phase = .waking) : Turn s d .exited

theorem Turn.awake (turn : Turn s d phase) : d.phase ≠ .exited := by
  intro exited
  cases turn with
  | leave before | relay before | expire before | record before | wake before =>
    cases exited.symm.trans before

theorem Step.watchdog_cases (step : Step s e t) (later : t.watchdogs[w]? = some d) :
    s.watchdogs[w]? = some d ∨
    (∃ h external timeout, e = .watch h external timeout ∧ w = s.watchdogs.length ∧
      s.signalOf? h = some d.internal ∧ external.map s.signalOf? = d.external.map some ∧
      d.phase = .watching) ∨
    ∃ own phase, s.watchdogs[w]? = some own ∧ Turn s own phase ∧ d = { own with phase } := by
  have turned {v : Nat} {own : Watchdog} {phase : WatchPhase} {z : Tokens}
      (same : z.watchdogs = s.watchdogs) (found : s.watchdogs[v]? = some own) (turn : Turn s own phase)
      (later : (z.setWatch v phase).watchdogs[w]? = some d) :
      s.watchdogs[w]? = some d ∨ ∃ own phase, s.watchdogs[w]? = some own ∧ Turn s own phase ∧
        d = { own with phase } := by
    rcases watchdog_set later with before | ⟨_, rfl, before, rfl⟩ <;> rw [same] at before
    · exact .inl before
    · cases found.symm.trans before
      exact .inr ⟨own, phase, found, turn, rfl⟩
  cases step with
  | watch live linked watches =>
    rw [List.getElem?_append] at later
    split at later
    · exact .inl later
    · rename_i beyond
      rw [List.getElem?_singleton] at later
      split at later <;> cases later
      exact .inr (.inl ⟨_, _, _, rfl, by omega, live, linked, rfl⟩)
  | leave found watching ready => exact (turned rfl found (.leave watching) later).imp_right .inr
  | relay found linked watching ready =>
    exact (turned rfl found (.relay watching linked ready) later).imp_right .inr
  | expire found watching due => exact (turned rfl found (.expire watching due) later).imp_right .inr
  | barkRecord found recording => exact (turned rfl found (.record recording) later).imp_right .inr
  | barkWake found waking => exact (turned rfl found (.wake waking) later).imp_right .inr
  | _ => exact .inl later

theorem Step.kept_before (step : Step s e t) (inside : i < s.signals.length) (kept : t.isKept i = true) :
    s.isKept i = true := by
  rw [isKept_iff] at kept ⊢
  rcases kept with ⟨h, live⟩ | ⟨w, d, later, guards, awake⟩
  · rcases step.handle_cases live with older | ⟨fresh, -⟩
    · exact .inl older
    · omega
  · rcases step.watchdog_cases later with before | ⟨h, _, _, -, -, live, -⟩ | ⟨own, _, before, turn, rfl⟩
    · exact .inr ⟨w, d, before, guards, awake⟩
    · exact .inl ⟨h, guards ▸ live⟩
    · exact .inr ⟨w, own, before, guards, turn.awake⟩

-- A signal has come to its end once it is tripped, and also when it is left by everybody who could
-- trip it.
def Ended (s : Tokens) (i : Nat) : Prop := (s.signal i).isTripped = true ∨ s.isKept i = false

theorem Ended.stays (ended : s.Ended i) (placed : s.Placed) (inside : i < s.signals.length)
    (step : Step s e t) : t.Ended i := by
  refine ended.imp (step.tripped_stays placed) fun left => ?_
  exact Bool.eq_false_iff.mpr fun kept => Bool.eq_false_iff.mp left (step.kept_before inside kept)

-- What a watchdog has met with before it trips its signal for a reason.
inductive Heard (s : Tokens) (d : Watchdog) : CancelReason → Prop where
  | requested {e : Nat} (linked : d.external = some e) (ended : s.Ended e) : Heard s d .requested
  | timedOut {limit : Nat} (armed : d.deadline = some limit) (passed : limit ≤ s.clock) :
      Heard s d .timedOut

theorem isDue_iff {deadline : Option Nat} :
    s.isDue deadline = true ↔ ∃ limit, deadline = some limit ∧ limit ≤ s.clock := by
  cases deadline <;> simp [isDue]

theorem Step.clock_le (step : Step s e t) : s.clock ≤ t.clock := by
  cases step with
  | tick => exact Nat.le_succ _
  | _ => exact Nat.le_refl _

structure Founded (s : Tokens) : Prop where
  placed : s.Placed
  linked : ∀ (w : Nat) (d : Watchdog) (i : Nat), s.watchdogs[w]? = some d → d.external = some i →
    i < s.signals.length
  heard : ∀ (w : Nat) (d : Watchdog) (r : CancelReason), s.watchdogs[w]? = some d →
    d.phase = .recording r → s.Heard d r

theorem founded_empty : ({} : Tokens).Founded := ⟨placed_empty, nofun, nofun⟩

theorem ended_of_ready (ready : s.isReady i = true) : s.Ended i := by
  rw [isReady, Bool.or_eq_true, Bool.not_eq_true'] at ready
  exact ready.imp_left Signal.isTripped_of_woken

theorem Founded.heard_stays (founded : s.Founded) (step : Step s e t) (found : s.watchdogs[w]? = some d)
    (heard : s.Heard d r) : t.Heard d r := by
  cases heard with
  | requested linked ended =>
    exact .requested linked (ended.stays founded.placed (founded.linked w d _ found linked) step)
  | timedOut armed passed => exact .timedOut armed (Nat.le_trans passed step.clock_le)

theorem Founded.step (founded : s.Founded) (step : Step s e t) : t.Founded where
  placed := founded.placed.step step
  linked w d i later linked := by
    refine Nat.lt_of_lt_of_le ?_ step.signals_le
    rcases step.watchdog_cases later with before | ⟨h, external, _, -, -, -, same, -⟩ | ⟨own, _, before, -, rfl⟩
    · exact founded.linked w d i before linked
    · rw [linked] at same
      obtain ⟨g, -, live⟩ := Option.map_eq_some_iff.mp same
      exact founded.placed.handles live
    · exact founded.linked w own i before linked
  heard w d r later recording := by
    rcases step.watchdog_cases later with before | ⟨_, _, _, -, -, -, -, watching⟩ | ⟨own, _, before, turn, rfl⟩
    · exact founded.heard_stays step before (founded.heard w d r before recording)
    · cases recording.symm.trans watching
    · have own_heard : s.Heard own r := by
        cases turn with
        | relay _ linked ready => cases recording; exact .requested linked (ended_of_ready ready)
        | expire _ due =>
          cases recording
          obtain ⟨limit, armed, passed⟩ := isDue_iff.mp due
          exact .timedOut armed passed
        | leave | record | wake => cases recording
      cases founded.heard_stays step before own_heard with
      | requested linked ended => exact .requested linked ended
      | timedOut armed passed => exact .timedOut armed passed

theorem Founded.lasts (founded : s.Founded) (path : Reaches s t) : t.Founded := by
  induction path with
  | here => exact founded
  | step e path moved ih => exact ih.step (advance_sound moved)

theorem Step.watchdogs_le (step : Step s e t) : s.watchdogs.length ≤ t.watchdogs.length := by
  cases step with
  | watch => simp
  | leave | relay | expire | barkRecord | barkWake => simp [setWatch, modifySignal]
  | _ => exact Nat.le_refl _

theorem Step.watchdog_stays (step : Step s e t) (found : s.watchdogs[w]? = some d) :
    ∃ phase, t.watchdogs[w]? = some { d with phase } := by
  have inside : w < s.watchdogs.length := (List.getElem?_eq_some_iff.mp found).1
  obtain ⟨d', later⟩ : ∃ d', t.watchdogs[w]? = some d' :=
    ⟨_, List.getElem?_eq_getElem (Nat.lt_of_lt_of_le inside step.watchdogs_le)⟩
  rcases step.watchdog_cases later with before | ⟨_, _, _, -, last, -⟩ | ⟨own, phase, before, -, rfl⟩
  · cases found.symm.trans before
    exact ⟨d.phase, later⟩
  · omega
  · cases found.symm.trans before
    exact ⟨phase, later⟩

theorem Reaches.watchdog_stays (path : Reaches s t) (found : s.watchdogs[w]? = some d) :
    ∃ phase, t.watchdogs[w]? = some { d with phase } := by
  induction path with
  | here => exact ⟨d.phase, found⟩
  | step e path moved ih =>
    obtain ⟨_, before⟩ := ih
    obtain ⟨phase, later⟩ := (advance_sound moved).watchdog_stays before
    exact ⟨phase, later⟩

theorem Step.own_signal (step : Step s e t) (placed : s.Placed) (own : e ∈ watchEvents w)
    (found : s.watchdogs[w]? = some d) (j : Nat) :
    t.signal j = s.signal j ∨ j = d.internal ∧
      ((∃ r, d.phase = .recording r ∧ t.signal j = (s.signal j).record r) ∨
        t.signal j = (s.signal j).wake) := by
  have itself {v : Nat} {d' : Watchdog} (bark : .bark v ∈ watchEvents w)
      (here : s.watchdogs[v]? = some d') : d' = d := by
    have same : v = w := by simpa [watchEvents] using bark
    subst same
    exact Option.some.inj (here.symm.trans found)
  rcases step.signal_cases placed j with same | ⟨r, records, after⟩ | ⟨wakes, after⟩
  · exact .inl same
  · cases records with
    | call => simp [watchEvents] at own
    | watchdog here guards recording =>
      cases itself own here
      exact .inr ⟨guards.symm, .inl ⟨r, recording, after⟩⟩
  · cases wakes with
    | call => simp [watchEvents] at own
    | watchdog here guards waking =>
      cases itself own here
      exact .inr ⟨guards.symm, .inr after⟩

-- What a step from `v` to `t` may do to the signals if it is the step of a watchdog that was set up in
-- `s`. The other signal has come to its end where it has been passed on, and so has the time.
structure Relays (s : Tokens) (i : Nat) (external : Option Nat) (timeout : Option Duration)
    (v t : Tokens) : Prop where
  apart : ∀ j, j ≠ i → t.signal j = v.signal j
  first : ∀ r, (v.signal i).reason = some r → (t.signal i).reason = some r
  requested : (v.signal i).isTripped = false → (t.signal i).reason = some .requested →
    ∃ g e, external = some g ∧ s.signalOf? g = some e ∧ v.Ended e
  timedOut : (v.signal i).isTripped = false → (t.signal i).reason = some .timedOut →
    ∃ d, timeout = some d ∧ s.clock + d.nanoseconds ≤ v.clock
  only : (v.signal i).isTripped = false → ∀ r, (t.signal i).reason = some r →
    r = .requested ∨ r = .timedOut

-- A watchdog passes on what has happened: that the other signal has come to its end, or that the time is
-- over. A signal without any handle left counts as ended although nobody has tripped it.
theorem watchdog_relays (path : Reaches {} s) (spawned : s.advance (.watch h external timeout) = some u)
    (onward : Reaches u v) (own : e ∈ watchEvents s.watchdogs.length) (moved : v.advance e = some t) :
    ∃ i, s.signalOf? h = some i ∧ Relays s i external timeout v t := by
  have founded := ((founded_empty.lasts path).step (advance_sound spawned)).lasts onward
  have step := advance_sound moved
  cases advance_sound spawned with
  | @watch _ i _ other _ live linked watches =>
    refine ⟨i, live, ?_⟩
    obtain ⟨phase, found⟩ := onward.watchdog_stays (List.getElem?_concat_length ..)
    have changed := step.own_signal founded.placed own found
    have recorded (quiet : (v.signal i).isTripped = false) {r : CancelReason}
        (reason : (t.signal i).reason = some r) : phase = .recording r := by
      have none : (v.signal i).reason = none := by simpa [Signal.isTripped] using quiet
      rcases changed i with same | ⟨-, ⟨q, recording, after⟩ | after⟩
      · rw [same, none] at reason
        cases reason
      · rw [after, Signal.record_first quiet] at reason
        cases reason
        exact recording
      · rw [after, Signal.wake_reason, none] at reason
        cases reason
    refine ⟨?_, fun r => step.reason_stays founded.placed, ?_, ?_, ?_⟩
    · intro j apart
      rcases changed j with same | ⟨own, -⟩
      · exact same
      · exact absurd own apart
    · intro quiet reason
      cases founded.heard _ _ _ found (recorded quiet reason) with
      | requested there ended =>
        rw [show other = some _ from there] at linked
        obtain ⟨g, rfl, live⟩ := Option.map_eq_some_iff.mp linked
        exact ⟨g, _, rfl, live, ended⟩
    · intro quiet reason
      cases founded.heard _ _ _ found (recorded quiet reason) with
      | timedOut armed passed =>
        obtain ⟨d, given, rfl⟩ := Option.map_eq_some_iff.mp armed
        exact ⟨d, given, passed⟩
    · intro quiet r reason
      cases founded.heard _ _ _ found (recorded quiet reason) with
      | requested => exact .inl rfl
      | timedOut => exact .inr rfl

theorem Reaches.follows {events : List Event} (path : Reaches s t)
    (ran : events.foldlM advance t = some u) : Reaches s u :=
  foldlM_keeps (fun before moved => before.step _ moved) path ran

-- Two signals, the second with two handles. One of them is dropped, and then it is tripped by the other.
def linkedTwice : List Event := [.create, .create, .clone 1]

def trippedOnce : List Event := [.drop 1, .trip 2 .failed, .proceed 0, .proceed 0, .relay 0]

theorem watchdog_relays_once :
    ∃ s u v t, Reaches {} s ∧ s.advance (.watch 0 (some 1) (some ⟨5⟩)) = some u ∧ Reaches u v ∧
      .bark 0 ∈ watchEvents s.watchdogs.length ∧ v.advance (.bark 0) = some t ∧
      (t.signal 0).reason = some .requested ∧ Relays s 0 (some 1) (some ⟨5⟩) v t := by
  have path : Reaches {} _ := Reaches.here.follows (show linkedTwice.foldlM advance {} = some _ from rfl)
  refine ⟨_, _, _, _, path, rfl,
    Reaches.here.follows (show trippedOnce.foldlM advance _ = some _ from rfl), by decide, rfl, rfl, ?_⟩
  obtain ⟨i, live, relays⟩ := watchdog_relays path
    (show Tokens.advance _ (.watch 0 (some 1) (some ⟨5⟩)) = some _ from rfl)
    (Reaches.here.follows (show trippedOnce.foldlM advance _ = some _ from rfl))
    (show Event.bark 0 ∈ _ by decide) rfl
  cases live
  exact relays

-- The only handle on the other signal is dropped. Nobody has tripped it, and no time has passed.
def abandoned : List Event := [.create, .create, .watch 0 (some 1) (some ⟨1000000000⟩), .drop 1, .relay 0]

theorem abandonment_relayed :
    ∃ s t, Reaches {} s ∧ s.watchdogs = [⟨0, some 1, some 1000000000, .recording .requested⟩] ∧
      s.advance (.bark 0) = some t ∧ (s.signal 0).isTripped = false ∧
      (t.signal 0).reason = some .requested ∧ (t.signal 1).isTripped = false ∧ t.clock = 0 :=
  ⟨_, _, Reaches.here.follows (show abandoned.foldlM advance {} = some _ from rfl), rfl, rfl, rfl, rfl, rfl,
    rfl⟩

end TreeDigest.Tokens
