import TreeDigest.Proofs.Digest.Exactness
import TreeDigest.Proofs.Walk.Skipping
namespace TreeDigest
open Std

namespace Run
variable {job : Job α β} {client : Client α β} {s : Run α β} {r : RunResult α β} {c : Collected α β}
  {xs : List α}

theorem Sound.seen (sound : Sound job client s) (returned : s.result? = some r) :
    s.pipeline.stream.received = s.seen := by
  have received := sound.gathered.received
  unfold result? at returned
  cases phase : s.phase <;> simp only [phase] at returned <;> cases returned
  simpa [unseen, phase] using received

theorem Sound.seen_perm (sound : Sound job client s) (returned : s.result? = some (.ok c))
    (gives : job.source.Gives xs .finished) : (s.seen.map (·.item)).Perm xs := by
  obtain ⟨⟨n, verdict⟩, -, -⟩ := sound.justified returned
  obtain ⟨ys, also, -, same⟩ := sound.pipeline.exact verdict
  obtain ⟨rfl, -⟩ := gives.unique nofun also nofun
  rw [sound.seen returned] at same
  simpa [Function.comp_def] using same.map Prod.fst

end Run

namespace Digesting
open TreeWalk

def lenient (o : DigestOptions) : DigestOptions := { o with keepGoing := true, skipUnreadable := true }

def strict (o : DigestOptions) : DigestOptions := { o with keepGoing := false, skipUnreadable := false }

-- However the threads of a digest move, it takes only so many steps and stops nowhere short of its end.
-- If nobody trips the caller's signal, what it returns is as `P` says of the files that the caller was
-- told of and of the result.
def Comes (fs : FileSystem) (root : Path) (o : DigestOptions) (caller : Option Signal)
    (P : List Path → Except PipelineError Report → Prop) : Prop :=
  ∃ tuning p, Pipeline.start? o.run caller = .ok (tuning, p) ∧
    (∃ bound, ∀ es t, Run.follow (job fs root o tuning) (client o) (Run.start p) es = some t →
      es.length ≤ bound) ∧
    ∀ t, Run.Reaches (job fs root o tuning) (client o) (Run.start p) t →
      (Run.Stuck (job fs root o tuning) (client o) t → Run.Over t) ∧
      (t.pipeline.caller = none ∨ t.pipeline.caller = some {} → ∀ r, t.result? = some r →
        ∃ result, conclude fs root o r = some result ∧ P (t.seen.map (·.item)) result)

variable {fs : FileSystem} {root : Path} {o : DigestOptions} {caller : Option Signal}
  {P Q : List Path → Except PipelineError Report → Prop}

theorem Comes.imp (comes : Comes fs root o caller P)
    (further : ∀ told result, P told result → Q told result) : Comes fs root o caller Q := by
  obtain ⟨tuning, p, started, bound, all⟩ := comes
  refine ⟨tuning, p, started, bound, fun t path => ⟨(all t path).1, fun still r returned => ?_⟩⟩
  obtain ⟨result, concluded, holds⟩ := (all t path).2 still r returned
  exact ⟨result, concluded, further _ _ holds⟩

theorem Comes.and (comes : Comes fs root o caller P) (also : Comes fs root o caller Q) :
    Comes fs root o caller fun told result => P told result ∧ Q told result := by
  obtain ⟨tuning, p, started, bound, all⟩ := comes
  obtain ⟨tuning', p', started', -, all'⟩ := also
  cases started.symm.trans started'
  refine ⟨tuning, p, started, bound, fun t path => ⟨(all t path).1, fun still r returned => ?_⟩⟩
  obtain ⟨result, concluded, one⟩ := (all t path).2 still r returned
  obtain ⟨result', concluded', other⟩ := (all' t path).2 still r returned
  cases concluded.symm.trans concluded'
  exact ⟨result, concluded, one, other⟩

theorem Comes.ends (comes : Comes fs root o none P) :
    ∃ seen result, Ends fs root o none result ∧ P seen result := by
  obtain ⟨tuning, p, started, -, all⟩ := comes
  obtain ⟨es, t, -, followed, atEnd⟩ :=
    (Run.Reaches.here.sound started).completes attempt_ne_never (job_stops tuning)
  have path := Run.follow_exact.mpr ⟨es, followed⟩
  obtain ⟨r, returned⟩ := Option.isSome_iff_exists.mp atEnd.returned
  have alone : t.pipeline.caller = none := by
    obtain ⟨-, rfl, -, -⟩ := Pipeline.start?_ok started
    exact path.unsigned rfl
  obtain ⟨result, concluded, comes⟩ := (all t path).2 (.inl alone) r returned
  exact ⟨_, result, .returned started path returned concluded, comes⟩

theorem comes (workers : 0 < o.run.workers) (timeless : o.run.timeout = none)
    (untouched : caller = none ∨ caller = some {})
    (settles : ∀ tuning seen r,
      Run.Settled (job fs root o tuning) (client o) (leading ((TreeWalk.ofOptions root o).items fs))
        (ending ((TreeWalk.ofOptions root o).items fs)) r →
      (∀ c, r = .ok c → ending ((TreeWalk.ofOptions root o).items fs) = .finished →
        seen.Perm (leading ((TreeWalk.ofOptions root o).items fs))) →
      ∃ result, conclude fs root o r = some result ∧ P seen result) :
    Comes fs root o caller P := by
  obtain ⟨tuning, started⟩ := (Pipeline.start?_quiet workers untouched :
    ∃ tuning, Pipeline.start? (α := Path) (β := Digest) _ _ = _)
  have gives := source_gives fs (TreeWalk.ofOptions root o)
  refine ⟨tuning, _, started, ?_, fun t path => ⟨?_, ?_⟩⟩
  · exact (Run.Reaches.here.sound started).bounded (job_stops tuning)
  · exact fun stuck => stuck.over (path.sound started) attempt_ne_never
  · intro still r returned
    have sound := path.sound started
    have undisturbed : Run.Undisturbed (job fs root o tuning) (client o) t :=
      ⟨(Pipeline.start?_ok started).2.2.1.trans timeless, still, attempt_ne_panic, fun _ => rfl⟩
    apply settles tuning
    · exact sound.settled (path.provoked started) undisturbed gives ending_stops returned
    · rintro c rfl finished
      rw [finished] at gives
      exact sound.seen_perm returned gives

theorem gathered_paths (fs : FileSystem) (paths : List Path) :
    ((gathered fs {} paths).digests.map (·.1) ++ (gathered fs {} paths).failures.map (·.1)).Perm
      paths := by
  simp only [gathered, List.nil_append]
  induction paths with
  | nil => exact .refl _
  | cons path rest ih =>
    simp only [List.filterMap_cons, digested?, unreadable?]
    cases hashFile fs path with
    | ok d => exact ih.cons path
    | error m => exact List.perm_middle.trans (ih.cons path)

theorem unreadable_nil {paths : List Path} :
    paths.filterMap (unreadable? fs) = [] ↔ ∀ path ∈ paths, ∃ d, hashFile fs path = .ok d := by
  rw [List.filterMap_eq_nil_iff]
  refine forall₂_congr fun path _ => ?_
  unfold unreadable?
  cases hashFile fs path <;> simp [failureOf]

-- All that a walk has to say: what becomes of each file it yields, and its own errors.
def everything (fs : FileSystem) (w : TreeWalk) : Report :=
  { gathered fs {} (w.yielded fs) with skipped := w.complaints fs }

theorem failures_nil {w : TreeWalk} :
    (everything fs w).failures = [] ↔ ∀ path ∈ w.yielded fs, ∃ d, hashFile fs path = .ok d := by
  rw [← unreadable_nil]
  simp [everything, gathered]

theorem skipped_nil {w : TreeWalk} :
    (everything fs w).skipped = [] ↔ firstError? ((w.skipping false).items fs) = none := by
  rw [firstError?_items rfl, complaints_skipping]
  simp [everything]

theorem lenient_comes (workers : 0 < o.run.workers)
    (timeless : o.run.timeout = none) (untouched : caller = none ∨ caller = some {}) :
    Comes fs root (lenient o) caller fun told result =>
      result = .ok (everything fs (TreeWalk.ofOptions root o)) ∧
        told.Perm ((TreeWalk.ofOptions root o).yielded fs) := by
  have walk : TreeWalk.ofOptions root (lenient o) = (TreeWalk.ofOptions root o).skipping true := rfl
  refine comes workers timeless untouched fun tuning told r settled seen => ?_
  rw [walk] at settled seen
  have whole : firstError? (((TreeWalk.ofOptions root o).skipping true).items fs) = none :=
    firstError?_skipped rfl
  have finished : ending (((TreeWalk.ofOptions root o).skipping true).items fs) = .finished := by
    simp [ending, whole]
  have taken := (leading_items whole).trans (yielded_skipping fs _ true)
  cases settled with
  | @ok c _ holds _ =>
    refine ⟨_, rfl, congrArg Except.ok ?_, taken ▸ seen c rfl finished⟩
    rw [report_eq holds (leading_ascending ..), taken, walk, skipped_complaints rfl,
      complaints_skipping]
    rfl
  | rejected policy => cases policy
  | broken ended => simp [finished] at ended

theorem strict_comes (workers : 0 < o.run.workers)
    (timeless : o.run.timeout = none) (untouched : caller = none ∨ caller = some {}) :
    Comes fs root (strict o) caller fun _ result =>
      ((∃ r, result = .ok r) ↔ (everything fs (TreeWalk.ofOptions root o)).failures = [] ∧
        (everything fs (TreeWalk.ofOptions root o)).skipped = []) ∧
      ∀ r, result = .ok r → r = everything fs (TreeWalk.ofOptions root o) := by
  have walk : TreeWalk.ofOptions root (strict o) = (TreeWalk.ofOptions root o).skipping false := rfl
  refine comes workers timeless untouched fun tuning told r settled _ => ?_
  rw [walk] at settled
  rw [failures_nil, skipped_nil]
  have present : leading (((TreeWalk.ofOptions root o).skipping false).items fs) ⊆
      (TreeWalk.ofOptions root o).yielded fs := by
    rw [← yielded_skipping fs _ false]
    exact leading_yielded
  cases settled with
  | @ok c finished holds fine =>
    have whole : firstError? (((TreeWalk.ofOptions root o).skipping false).items fs) = none := by
      unfold ending at finished
      split at finished <;> simp_all
    have taken := (leading_items whole).trans (yielded_skipping fs _ false)
    rw [taken] at fine
    have all : ∀ path ∈ (TreeWalk.ofOptions root o).yielded fs, ∃ d, hashFile fs path = .ok d := by
      intro path member
      obtain ⟨d, value⟩ := fine rfl path member
      refine ⟨d, ?_⟩
      simp only [job, Pipeline.job, attempt] at value
      split at value <;> simp_all
    have same : report fs root (strict o) c = everything fs (TreeWalk.ofOptions root o) := by
      have none : (TreeWalk.ofOptions root o).complaints fs = [] := skipped_nil.mpr whole
      rw [report_eq holds (leading_ascending ..), taken, walk, skipped_nothing rfl, everything,
        none]
    refine ⟨_, rfl, ⟨fun _ => ⟨all, whole⟩, fun _ => ⟨_, rfl⟩⟩, ?_⟩
    rintro r ⟨⟩
    exact same
  | @rejected path m _ member fails =>
    refine ⟨_, rfl, ⟨?_, ?_⟩, ?_⟩
    · rintro ⟨r, ⟨⟩⟩
    · rintro ⟨all, -⟩
      obtain ⟨d, hashed⟩ := all path (present member)
      simp [job, Pipeline.job, attempt, hashed] at fails
    · rintro r ⟨⟩
  | @broken m ended =>
    refine ⟨_, rfl, ⟨?_, ?_⟩, ?_⟩
    · rintro ⟨r, ⟨⟩⟩
    · rintro ⟨-, whole⟩
      simp [ending, whole] at ended
    · rintro r ⟨⟩

-- Whatever the tree and whatever the threads do, a lenient digest accounts for every file that the walk
-- yields once and for every error it meets, in the order of the walk. A strict one returns a report
-- exactly if there is nothing to complain about, and then the very same one.
theorem strict_iff_clean (fs : FileSystem) (root : Path) (workers : 0 < o.run.workers)
    (timeless : o.run.timeout = none) (untouched : caller = none ∨ caller = some {}) :
    ∃ l : Report,
      (l.digests.map (·.1) ++ l.failures.map (·.1)).Perm ((TreeWalk.ofOptions root o).yielded fs) ∧
      ((TreeWalk.ofOptions root o).yielded fs).Nodup ∧
      l.skipped = (TreeWalk.ofOptions root o).complaints fs ∧
      Comes fs root (lenient o) caller (fun told result =>
        result = .ok l ∧ told.Perm ((TreeWalk.ofOptions root o).yielded fs)) ∧
      Comes fs root (strict o) caller fun _ result =>
        ((∃ r, result = .ok r) ↔ l.failures = [] ∧ l.skipped = []) ∧ ∀ r, result = .ok r → r = l := by
  refine ⟨everything fs (TreeWalk.ofOptions root o), gathered_paths fs _, ?_, rfl,
    lenient_comes workers timeless untouched, strict_comes workers timeless untouched⟩
  refine (yielded_ascending ..).imp ?_
  rintro p q before rfl
  cases (ReflCmp.compare_self : p.compare p = .eq).symm.trans before

section Mixed
open Sample

theorem mixed_everything : everything mixed.tree (TreeWalk.ofOptions longTop going) =
    { digests := [(plainAtTop, hashContent [122])]
      failures := [(inFolder, tooLong inFolder), (dashedAtTop, tooLong dashedAtTop)] } := by
  have plain : Plain (TreeWalk.ofOptions longTop going) := ⟨rfl, rfl⟩
  have yielded : (TreeWalk.ofOptions longTop going).yielded mixed.tree =
      [inFolder, dashedAtTop, plainAtTop] := by
    rw [TreeWalk.yielded, mixed_outcomes plain rfl rfl]
    rfl
  have complaints : (TreeWalk.ofOptions longTop going).complaints mixed.tree = [] := by
    rw [TreeWalk.complaints, mixed_outcomes plain rfl rfl]
    rfl
  rw [everything, yielded, mixed_gathered, complaints]

theorem strict_iff_clean_mixed : ∃ l : Report,
    l.digests = [(plainAtTop, hashContent [122])] ∧
    l.failures = [(inFolder, tooLong inFolder), (dashedAtTop, tooLong dashedAtTop)] ∧ l.skipped = [] ∧
    Comes mixed.tree longTop (lenient going) none (fun _ result => result = .ok l) ∧
    Comes mixed.tree longTop (strict going) none fun _ result => ∀ r, result ≠ .ok r := by
  have workers : 0 < going.run.workers := by decide
  obtain ⟨l, -, -, -, tolerant, severe⟩ :=
    strict_iff_clean mixed.tree longTop workers rfl (.inl rfl)
  obtain ⟨seen, result, -, ⟨rfl, -⟩, same, -⟩ :=
    (tolerant.and (lenient_comes workers rfl (.inl rfl))).ends
  cases same.trans (congrArg Except.ok mixed_everything)
  refine ⟨_, rfl, rfl, rfl, tolerant.imp fun _ _ told => told.1, severe.imp fun _ result told r done => ?_⟩
  obtain ⟨none, -⟩ := told.1.mp ⟨r, done⟩
  cases none

end Mixed

end Digesting
end TreeDigest
