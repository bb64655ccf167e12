import TreeDigest.Proofs.Pipeline.Backpressure
import TreeDigest.Proofs.Run.Undisturbed
namespace TreeDigest

namespace Enumerator
variable {source : Enumerator α} {xs ys : List α} {last : Pull α} {n : Nat}

theorem Yields.take (yields : source.Yields xs) : source.Yields (xs.take n) := by
  intro i x found
  rw [List.getElem?_take] at found
  exact yields i x (Option.ite_none_right_eq_some.mp found).2

theorem Gives.front (gives : source.Gives xs last) (stops : ∀ x, last ≠ .item x)
    (yields : source.Yields ys) : ys <+: xs := by
  have short := gives.yields_le stops yields
  have same : ys = xs.take ys.length := by
    apply yields.agree gives.yields.take
    rw [List.length_take]
    omega
  exact List.prefix_iff_eq_take.mpr same

theorem ofList_breaks (xs : List α) (last : Pull α) (rest : List (Pull α)) :
    (ofList (xs.map .item ++ last :: rest)).Gives xs last where
  starts := rfl
  yields i x found := by
    have inside := (List.getElem?_eq_some_iff.mp found).1
    rw [ofList_pull, List.getElem?_append_left (by simpa using inside), List.getElem?_map, found]
    rfl
  last := by
    rw [ofList_pull, List.getElem?_append_right (by simp)]
    simp

end Enumerator

namespace Feed
variable {source : Enumerator α} {f : Feed α}

theorem Honest.silent (honest : f.Honest source) (broken : source.starts = false) :
    f.emitted = [] ∧ f.reports = [] := by
  have standing := honest.standing
  unfold Standing at standing
  cases phase : f.phase <;> simp_all

end Feed

namespace Run
variable {options : RunOptions} {caller : Option Signal} {tuning : Tuning} {p : Pipeline α β}
  {source : Enumerator α} {transform : α → Attempt β} {client : Client α β} {t : Run α β}
  {xs : List α} {r : RunResult α β}

theorem Reaches.begun {job : Job α β} (started : Pipeline.start? options caller = .ok (tuning, p))
    (path : Reaches job client (start p) t) : t.pipeline.Begun := by
  obtain ⟨-, rfl, -, -⟩ := Pipeline.start?_ok started
  exact path.threads.begun

theorem Reaches.unharmed {last : Pull α}
    (started : Pipeline.start? options caller = .ok (tuning, p))
    (path : Reaches (Pipeline.job tuning source transform) client (start p) t)
    (gives : source.Gives xs last) (stops : ∀ x, last ≠ .item x)
    (calm : ∀ x ∈ xs, transform x ≠ .panic) : ¬ t.pipeline.Panicked := by
  intro panicked
  obtain ⟨x, begun, panics⟩ := (path.provoked started).panic panicked
  have placed := List.mem_reverse.mpr ((path.begun started).placed begun)
  exact calm x (gives.member stops (path.sound started).pipeline.honest.yields placed) panics

theorem Reaches.settles {last : Pull α} (timeless : options.timeout = none)
    (started : Pipeline.start? options caller = .ok (tuning, p))
    (path : Reaches (Pipeline.job tuning source transform) client (start p) t)
    (untouched : t.pipeline.caller = none ∨ t.pipeline.caller = some {})
    (gives : source.Gives xs last) (stops : ∀ x, last ≠ .item x)
    (calm : ∀ x ∈ xs, transform x ≠ .panic) (returned : t.result? = some r)
    (whole : r ≠ .panicked) :
    Settled (Pipeline.job tuning source transform) client xs last r := by
  have resolved : tuning.timeout = none := (Pipeline.start?_ok started).2.2.1.trans timeless
  exact (path.sound started).settles (path.provoked started) resolved untouched
    (path.unharmed started gives stops calm) gives stops returned whole

theorem Reaches.unstarted {job : Job α β} (timeless : job.timeout = none)
    (started : Pipeline.start? options caller = .ok (tuning, p))
    (path : Reaches job client (start p) t)
    (untouched : t.pipeline.caller = none ∨ t.pipeline.caller = some {})
    (broken : job.source.starts = false) (returned : t.result? = some r) (whole : r ≠ .panicked) :
    r = .error .cancelled := by
  have sound := path.sound started
  have provoked := path.provoked started
  obtain ⟨emitted, reports⟩ := sound.pipeline.honest.silent broken
  have justified := sound.justified returned
  cases r with
  | ok c =>
    obtain ⟨xs, gives, -⟩ := sound.ok returned
    cases broken.symm.trans gives.starts
  | error e =>
    rcases justified with ⟨-, o, received, -⟩ | ⟨m, reported, -⟩ | ⟨reason, -, other, caused, -⟩ |
      ⟨-, told⟩
    · have placed := sound.pipeline.conserved.placed received
      simp [emitted] at placed
    · simp [reports] at reported
    · refine absurd caused (uncaused provoked timeless untouched (fun panicked => ?_) other)
      obtain ⟨x, begun, -⟩ := provoked.panic panicked
      have placed := (path.begun started).placed begun
      simp [emitted] at placed
    · rw [told]
  | panicked => exact absurd rfl whole

-- A source that fails after these items is what the call reports, whatever came back before and in
-- whatever order the threads move. Only where the first failing item counts may one of the items before
-- the failure be reported in its place. What the source would have brought after it is never placed.
theorem source_error_reported {m : String} (workers : 0 < options.workers)
    (timeless : options.timeout = none) (quiet : caller = none ∨ caller = some {})
    (gives : source.Gives xs (.error m)) (calm : ∀ x ∈ xs, transform x ≠ .panic) :
    ∃ tuning p, Pipeline.start? options caller = .ok (tuning, p) ∧
      ∀ t, Reaches (Pipeline.job tuning source transform) client (start p) t →
        t.pipeline.feed.emitted.reverse <+: xs ∧
        ∀ r, t.pipeline.caller = caller → t.result? = some r → r ≠ .panicked →
          r = .error (.enumeration m) ∨
            client.policy = .failFast ∧ ∃ x ∈ xs, ∃ e, transform x = .error e ∧
              r = .error (.transform (client.shown x) e) := by
  obtain ⟨tuning, started⟩ := Pipeline.start?_quiet (α := α) (β := β) workers quiet
  refine ⟨tuning, _, started, fun t path => ⟨?_, fun r untouched returned whole => ?_⟩⟩
  · exact gives.front nofun (path.sound started).pipeline.honest.yields
  · rw [← untouched] at quiet
    cases path.settles timeless started quiet gives nofun calm returned whole with
    | ok finished => cases finished
    | @rejected x e first member fails => exact .inr ⟨first, x, member, e, fails, rfl⟩
    | broken ended =>
      rcases ended with error | ⟨panic, -⟩
      · cases error
        exact .inl rfl
      · cases panic

def failingNumbers : Job Nat Nat :=
  Pipeline.job ⟨2, 0, none⟩ (.ofList [.item 3, .item 4, .error "gone", .item 5]) fun x =>
    .of (plusOne x)

theorem source_error_reported_gone :
    ∃ t, Reaches failingNumbers { policy := .keepGoing, shown := toString }
        (start (Pipeline.start ⟨2, 0, none⟩ (some {}))) t ∧
      t.pipeline.feed.emitted.reverse <+: [3, 4] ∧
      t.result? = some (.error (.enumeration "gone")) := by
  have carried : (Schedule.complete failingNumbers { policy := .keepGoing, shown := toString }
      (fun _ => false) (start (Pipeline.start ⟨2, 0, none⟩ (some {})))).map
        (fun t => (t.result?, t.pipeline.caller)) =
      some (some (.error (.enumeration "gone")), some {}) := by with_unfolding_all rfl
  obtain ⟨t, path, returned, untouched⟩ := Schedule.complete_returns carried
  obtain ⟨tuning, p, started, reported⟩ := @source_error_reported _ _ ⟨2, none, some 0⟩ (some {}) _
    (fun x => .of (plusOne x)) { policy := .keepGoing, shown := toString } _ _ (by decide) rfl
    (.inr rfl) (Enumerator.ofList_breaks [3, 4] (.error "gone") [.item 5])
    fun x _ => Attempt.of_ne_panic
  cases started
  obtain ⟨front, settled⟩ := reported t path
  rcases settled _ untouched returned nofun with same | ⟨first, -⟩
  · exact ⟨t, path, front, same ▸ returned⟩
  · cases first

-- The first failing item that is looked at ends the call. Nothing else can: the source has nothing to
-- report but its end, and the call's own signal comes after it has the failure in its hand.
theorem item_failure_reported (workers : 0 < options.workers) (timeless : options.timeout = none)
    (quiet : caller = none ∨ caller = some {}) (gives : source.Gives xs .finished)
    (calm : ∀ x ∈ xs, transform x ≠ .panic) (failing : ∃ x ∈ xs, ∃ e, transform x = .error e)
    (policy : client.policy = .failFast) :
    ∃ tuning p, Pipeline.start? options caller = .ok (tuning, p) ∧
      ∀ t r, Reaches (Pipeline.job tuning source transform) client (start p) t →
        t.pipeline.caller = caller → t.result? = some r → r ≠ .panicked →
        (∃ x ∈ xs, ∃ e, transform x = .error e ∧ r = .error (.transform (client.shown x) e)) ∧
        ∀ x e, transform x = .error e → (∀ y ∈ xs, ∀ d, transform y = .error d → y = x) →
          r = .error (.transform (client.shown x) e) := by
  obtain ⟨tuning, started⟩ := Pipeline.start?_quiet (α := α) (β := β) workers quiet
  refine ⟨tuning, _, started, fun t r path untouched returned whole => ?_⟩
  rw [← untouched] at quiet
  have reported : ∃ x ∈ xs, ∃ e, transform x = .error e ∧
      r = .error (.transform (client.shown x) e) := by
    cases path.settles timeless started quiet gives nofun calm returned whole with
    | ok finished holds fine =>
      obtain ⟨x, member, e, fails⟩ := failing
      obtain ⟨v, value⟩ := fine policy x member
      cases fails.symm.trans value
    | @rejected x e first member fails => exact ⟨x, member, e, fails, rfl⟩
    | broken ended => simp at ended
  refine ⟨reported, fun x e fails only => ?_⟩
  obtain ⟨y, member, d, other, rfl⟩ := reported
  cases only y member d other
  cases fails.symm.trans other
  rfl

theorem item_failure_reported_four :
    ∃ t, Reaches threeNumbers { policy := .failFast, shown := toString }
        (start (Pipeline.start ⟨2, 0, none⟩ (some {}))) t ∧
      t.result? = some (.error (.transform "4" "four")) := by
  have carried : (Schedule.complete threeNumbers { policy := .failFast, shown := toString }
      (fun _ => false) (start (Pipeline.start ⟨2, 0, none⟩ (some {})))).map
        (fun t => (t.result?, t.pipeline.caller)) =
      some (some (.error (.transform "4" "four")), some {}) := by with_unfolding_all rfl
  obtain ⟨t, path, returned, untouched⟩ := Schedule.complete_returns carried
  obtain ⟨tuning, p, started, reported⟩ := @item_failure_reported _ _ ⟨2, none, some 0⟩ (some {}) _
    (fun x => .of (plusOne x)) { policy := .failFast, shown := toString } _ (by decide) rfl
    (.inr rfl) (Enumerator.ofList_gives [3, 4, 3]) (fun x _ => Attempt.of_ne_panic)
    ⟨4, by decide, "four", rfl⟩ rfl
  cases started
  have only : ∀ y ∈ [3, 4, 3], ∀ d, Attempt.of (plusOne y) = .error d → y = 4 := by
    intro y _ d fails
    have failed := Attempt.of_eq_error.mp fails
    unfold plusOne at failed
    split at failed
    · assumption
    · cases failed
  have same := (reported t _ path untouched returned nofun).2 4 "four" rfl only
  exact ⟨t, path, same ▸ returned⟩

-- A source that panics when it is asked for an item is reported as a source that failed. One that panics
-- before it can be asked has nobody who would report it, so the call is told that it was cancelled.
theorem source_panic_reported (workers : 0 < options.workers) (timeless : options.timeout = none)
    (quiet : caller = none ∨ caller = some {}) (calm : ∀ x, transform x ≠ .panic)
    (fine : ∀ x e, transform x ≠ .error e) :
    ∃ tuning p, Pipeline.start? options caller = .ok (tuning, p) ∧
      ∀ t r, Reaches (Pipeline.job tuning source transform) client (start p) t →
        t.pipeline.caller = caller → t.result? = some r → r ≠ .panicked →
        (∀ xs, source.Gives xs .panic → r = .error (.enumeration "source panicked")) ∧
        (source.starts = false → r = .error .cancelled) := by
  obtain ⟨tuning, started⟩ := Pipeline.start?_quiet (α := α) (β := β) workers quiet
  refine ⟨tuning, _, started, fun t r path untouched returned whole => ⟨?_, ?_⟩⟩
  · intro xs gives
    rw [← untouched] at quiet
    cases path.settles timeless started quiet gives nofun (fun x _ => calm x) returned whole with
    | ok finished => cases finished
    | @rejected x e first member fails => exact absurd fails (fine x e)
    | broken ended =>
      rcases ended with error | ⟨-, message⟩
      · cases error
      · rw [message]
        rfl
  · intro broken
    rw [← untouched] at quiet
    exact path.unstarted ((Pipeline.start?_ok started).2.2.1.trans timeless) started quiet broken
      returned whole

def panickingNumbers : Job Nat Nat :=
  Pipeline.job ⟨2, 0, none⟩ (.ofList [.item 3, .item 4, .panic]) .value

theorem source_panic_reported_two :
    ∃ t, Reaches panickingNumbers { policy := .keepGoing, shown := toString }
        (start (Pipeline.start ⟨2, 0, none⟩ (some {}))) t ∧
      t.result? = some (.error (.enumeration "source panicked")) := by
  have carried : (Schedule.complete panickingNumbers { policy := .keepGoing, shown := toString }
      (fun _ => false) (start (Pipeline.start ⟨2, 0, none⟩ (some {})))).map
        (fun t => (t.result?, t.pipeline.caller)) =
      some (some (.error (.enumeration "source panicked")), some {}) := by with_unfolding_all rfl
  obtain ⟨t, path, returned, untouched⟩ := Schedule.complete_returns carried
  obtain ⟨tuning, p, started, reported⟩ := @source_panic_reported _ _ ⟨2, none, some 0⟩ (some {})
    (.ofList [.item 3, .item 4, .panic]) .value { policy := .keepGoing, shown := toString }
    (by decide) rfl (.inr rfl) (fun _ => nofun) fun _ _ => nofun
  cases started
  have same := (reported t _ path untouched returned nofun).1 _
    (Enumerator.ofList_breaks [3, 4] .panic [])
  exact ⟨t, path, same ▸ returned⟩

def unpreparedNumbers : Job Nat Nat :=
  Pipeline.job ⟨1, 1, none⟩ { starts := false, pull := fun _ => .finished } .value

theorem unprepared_unreported :
    ∃ t, Reaches unpreparedNumbers { policy := .failFast, shown := toString }
        (start (Pipeline.start ⟨1, 1, none⟩ none)) t ∧
      t.pipeline.caller = none ∧ t.result? = some (.error .cancelled) ∧
      t.result? ≠ some (.error (.enumeration "source panicked")) := by
  have carried : (Schedule.complete unpreparedNumbers { policy := .failFast, shown := toString }
      (fun _ => false) (start (Pipeline.start ⟨1, 1, none⟩ none))).map
        (fun t => (t.result?, t.pipeline.caller)) =
      some (some (.error .cancelled), none) := by with_unfolding_all rfl
  obtain ⟨t, path, returned, untouched⟩ := Schedule.complete_returns carried
  refine ⟨t, path, untouched, returned, ?_⟩
  rw [returned]
  nofun

end Run
end TreeDigest
