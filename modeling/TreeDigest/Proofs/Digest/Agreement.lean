import TreeDigest.Proofs.Digest.Sample
import TreeDigest.Proofs.Run.Termination
import TreeDigest.Proofs.Run.Undisturbed
namespace TreeDigest
open Std

namespace TreeWalk
variable {fs : FileSystem} {items : List (Except String Path)}

def ending (items : List (Except String Path)) : Pull Path :=
  match firstError? items with
  | some m => .error m
  | none => .finished

theorem ending_stops (path : Path) : ending items ≠ .item path := by
  unfold ending
  split <;> nofun

theorem source_gives (fs : FileSystem) (w : TreeWalk) :
    (w.source fs).Gives (leading (w.items fs)) (ending (w.items fs)) where
  starts := rfl
  yields i path found := by simp [source, leading_getElem? found, pull]
  last := by
    unfold source ending
    rw [Enumerator.ofList_pull, List.getElem?_map, leading_ends]
    cases firstError? (w.items fs) <;> rfl

end TreeWalk

namespace Digesting
open TreeWalk

variable {fs : FileSystem} {root : Path} {o : DigestOptions} {caller : Option Signal}
  {items : List (Except String Path)} {paths : List Path} {c : Collected Path Digest}

theorem attempt_of (fs : FileSystem) : attempt fs = fun path => .of (hashFile fs path) := by
  funext path
  unfold attempt Attempt.of
  cases hashFile fs path <;> rfl

theorem sort_eq {complaints entries : Complaints}
    (ascending : OrderedMap.Ascending Path.compare entries) (perm : complaints.Perm entries) :
    Complaints.sort complaints = entries := by
  refine @mergeSort_eq _ (compareLex (fun a b => Path.compare a.1 b.1) (compareOn (·.2))) _ _ ?_ ?_ perm
  · have : TransCmp fun a b : Path × String => Path.compare a.1 b.1 := byKey
    infer_instance
  · exact ascending.imp fun before => by simp [compareLex, before]

theorem ascending_read (ascending : paths.Pairwise fun p q => p.compare q = .lt)
    (read : Path → Option γ) :
    OrderedMap.Ascending Path.compare (paths.filterMap fun path => (read path).map (path, ·)) := by
  refine ascending.filterMap _ ?_
  intro p q before e here f there
  obtain ⟨v, -, rfl⟩ := Option.map_eq_some_iff.mp here
  obtain ⟨w, -, rfl⟩ := Option.map_eq_some_iff.mp there
  exact before

-- Whatever order the outcomes came in, the report puts the files in path order. The walk in turn never
-- sorts, but it comes by them in this very order.
theorem report_eq (holds : c.Holds (attempt fs) paths)
    (ascending : paths.Pairwise fun p q => p.compare q = .lt) :
    report fs root o c =
      { gathered fs {} paths with skipped := (TreeWalk.ofOptions root o).skipped fs } := by
  have digests : c.toMap Path.compare = paths.filterMap (digested? fs) := by
    have values := holds.values
    simp only [attempt_of, Attempt.value?_of] at values
    exact Collected.toMap_eq (ascending_read ascending fun path => (hashFile fs path).toOption) values
  have failures : Complaints.sort c.failures = paths.filterMap (unreadable? fs) := by
    have failures := holds.failures
    simp only [attempt_of, Attempt.failure?_of] at failures
    exact sort_eq (ascending_read ascending fun path => failureOf (hashFile fs path)) failures
  simp [report, gathered, digests, failures]

-- The errors that a walk gives rise to, in the order in which it comes by them. It ends on its own first
-- error.
def errors (fs : FileSystem) : List (Except String Path) → List PipelineError
  | [] => []
  | .error m :: _ => [.enumeration m]
  | .ok path :: rest =>
    match hashFile fs path with
    | .ok _ => errors fs rest
    | .error m => .transform (shown path) m :: errors fs rest

theorem transform_mem_errors {path : Path} {m : String} (member : path ∈ leading items)
    (fails : hashFile fs path = .error m) : .transform (shown path) m ∈ errors fs items := by
  induction items with
  | nil => cases member
  | cons next rest ih =>
    cases next with
    | error m => cases member
    | ok first =>
      unfold errors
      rcases List.mem_cons.mp member with rfl | later
      · simp [fails]
      · split
        · exact ih later
        · exact List.mem_cons_of_mem _ (ih later)

theorem enumeration_mem_errors {m : String} (stops : firstError? items = some m) :
    .enumeration m ∈ errors fs items := by
  induction items with
  | nil => cases stops
  | cons next rest ih =>
    cases next with
    | error m' =>
      cases stops
      exact List.mem_singleton.mpr rfl
    | ok path =>
      unfold errors
      split
      · exact ih stops
      · exact List.mem_cons_of_mem _ (ih stops)

-- What a digest may come to, given what the same walk comes to in turn: the very same report, or an
-- error where that is an error. The two can differ only if there are several to choose from, and only
-- where the first failure counts.
structure Agrees (fs : FileSystem) (o : DigestOptions) (items : List (Except String Path))
    (inTurn result : Except PipelineError Report) : Prop where
  report : ∀ r, inTurn = .ok r → result = .ok r
  fails : ∀ e, inTurn = .error e → ∃ e', result = .error e'
  going : o.keepGoing = true → ∀ e, inTurn = .error e →
    result = .error e ∧ ∃ m, firstError? items = some m ∧ e = .enumeration m
  single : (errors fs items).length = 1 → ∀ e, inTurn = .error e → result = .error e
  error : ∀ e, result = .error e → e ∈ errors fs items

namespace Agrees

theorem ok (r : Report) : Agrees fs o items (.ok r) (.ok r) where
  report _ equal := equal
  fails := nofun
  going _ := nofun
  single _ := nofun
  error := nofun

theorem broken {m : String} (stops : firstError? items = some m) :
    Agrees fs o items (.error (.enumeration m)) (.error (.enumeration m)) where
  report := nofun
  fails _ _ := ⟨_, rfl⟩
  going _ e equal := by
    cases equal
    exact ⟨rfl, m, stops, rfl⟩
  single _ e equal := equal
  error e equal := by
    cases equal
    exact enumeration_mem_errors stops

theorem either {e e' : PipelineError} (strict : o.keepGoing = false) (one : e ∈ errors fs items)
    (other : e' ∈ errors fs items) : Agrees fs o items (.error e) (.error e') where
  report := nofun
  fails _ _ := ⟨_, rfl⟩
  going policy := by simp [strict] at policy
  single length e equal := by
    cases equal
    obtain ⟨sole, all⟩ := List.length_eq_one_iff.mp length
    rw [all, List.mem_singleton] at one other
    rw [one, other]
  error e equal := by
    cases equal
    exact other

end Agrees

inductive InTurn (fs : FileSystem) (root : Path) (o : DigestOptions)
    (items : List (Except String Path)) : Except PipelineError Report → Prop where
  | broken {m : String} (stops : firstError? items = some m) :
      InTurn fs root o items (.error (.enumeration m))
  | rejected {path : Path} {m : String} (strict : o.keepGoing = false) (member : path ∈ leading items)
      (fails : hashFile fs path = .error m) :
      InTurn fs root o items (.error (.transform (shown path) m))
  | ok (stops : firstError? items = none)
      (fine : o.keepGoing = true ∨ ∀ path ∈ leading items, ∃ d, hashFile fs path = .ok d) :
      InTurn fs root o items (.ok
        { gathered fs {} (leading items) with skipped := (TreeWalk.ofOptions root o).skipped fs })

theorem serial_inTurn (quiet : caller.any (·.isTripped) = false) :
    InTurn fs root o ((TreeWalk.ofOptions root o).items fs) (serial fs root o caller) := by
  have ascending := leading_ascending fs (TreeWalk.ofOptions root o)
  unfold serial
  rw [quiet]
  dsimp only
  by_cases fine : o.keepGoing = true ∨
      ∀ path ∈ leading ((TreeWalk.ofOptions root o).items fs), ∃ d, hashFile fs path = .ok d
  · rw [serialFrom_gathered (by simpa using ascending) fine]
    cases stops : firstError? ((TreeWalk.ofOptions root o).items fs) with
    | some m => exact .broken stops
    | none => exact .ok stops fine
  · simp only [not_or, Bool.not_eq_true, Classical.not_forall] at fine
    obtain ⟨strict, bad, member, unhashed⟩ := fine
    have fails : ∃ m, hashFile fs bad = .error m := by
      cases hashed : hashFile fs bad with
      | ok d => exact absurd ⟨d, hashed⟩ unhashed
      | error m => exact ⟨m, rfl⟩
    obtain ⟨path, m, first, error, ends⟩ := serialFrom_rejected {} strict ⟨bad, member, fails⟩
    rw [ends]
    exact .rejected strict first error

theorem serial_done (quiet : caller.any (·.isTripped) = false)
    (whole : firstError? ((TreeWalk.ofOptions root o).items fs) = none)
    (fine : o.keepGoing = true ∨
      ∀ path ∈ leading ((TreeWalk.ofOptions root o).items fs), ∃ d, hashFile fs path = .ok d) :
    serial fs root o caller = .ok
      { gathered fs {} (leading ((TreeWalk.ofOptions root o).items fs)) with
        skipped := (TreeWalk.ofOptions root o).skipped fs } := by
  have ascending := leading_ascending fs (TreeWalk.ofOptions root o)
  unfold serial
  rw [quiet]
  dsimp only
  rw [serialFrom_gathered (by simpa using ascending) fine, whole]
  rfl

theorem serial_gathered {r : Report}
    (done : serial fs root o caller = .ok r) :
    firstError? ((TreeWalk.ofOptions root o).items fs) = none ∧
      (o.keepGoing = true ∨
        ∀ path ∈ leading ((TreeWalk.ofOptions root o).items fs), ∃ d, hashFile fs path = .ok d) ∧
      r = { gathered fs {} (leading ((TreeWalk.ofOptions root o).items fs)) with
        skipped := (TreeWalk.ofOptions root o).skipped fs } := by
  cases quiet : caller.any (·.isTripped) with
  | false =>
    have turn : InTurn fs root o _ (serial fs root o caller) := serial_inTurn quiet
    rw [done] at turn
    cases turn with
    | ok stops fine => exact ⟨stops, fine, rfl⟩
  | true =>
    unfold serial at done
    rw [quiet] at done
    -- The signal is looked at before each item, so that there has been none.
    cases items : (TreeWalk.ofOptions root o).items fs with
    | nil =>
      simp only [items, serialFrom, Except.map] at done
      cases done
      exact ⟨rfl, .inr (List.forall_mem_nil _), rfl⟩
    | cons next rest => simp [items, serialFrom, Except.map] at done

theorem InTurn.agrees {tuning : Tuning} {inTurn : Except PipelineError Report}
    {r : RunResult Path Digest} (turn : InTurn fs root o items inTurn)
    (ascending : (leading items).Pairwise fun p q => p.compare q = .lt)
    (settled : Run.Settled (job fs root o tuning) (client o) (leading items) (ending items) r) :
    ∃ result, conclude fs root o r = some result ∧ Agrees fs o items inTurn result := by
  have strict (policy : (client o).policy = .failFast) : o.keepGoing = false := by
    simpa [client] using policy
  -- A report on one side and an error on the other contradict each other. Two errors that differ come
  -- from one walk, and only where the first failure counts.
  cases settled with
  | @ok c finished holds fine =>
    refine ⟨_, rfl, ?_⟩
    rw [report_eq holds ascending]
    cases turn with
    | broken stops => simp [ending, stops] at finished
    | rejected strict member fails =>
      obtain ⟨d, value⟩ := fine (by simp [client, strict]) _ member
      simp [job, Pipeline.job, attempt, fails] at value
    | ok stops fine => exact .ok _
  | @rejected path m policy member fails =>
    have fails : hashFile fs path = .error m := by
      simp only [job, Pipeline.job, attempt_of] at fails
      exact Attempt.of_eq_error.mp fails
    refine ⟨_, rfl, ?_⟩
    cases turn with
    | broken stops =>
      exact .either (strict policy) (enumeration_mem_errors stops) (transform_mem_errors member fails)
    | rejected strict first error =>
      exact .either strict (transform_mem_errors first error) (transform_mem_errors member fails)
    | ok stops fine =>
      rcases fine with going | all
      · simp [strict policy] at going
      · obtain ⟨d, value⟩ := all _ member
        cases value.symm.trans fails
  | @broken m ended =>
    have stops : firstError? items = some m := by
      unfold ending at ended
      split at ended <;> simp_all
    refine ⟨_, rfl, ?_⟩
    cases turn with
    | broken also =>
      cases also.symm.trans stops
      exact .broken stops
    | rejected strict first error =>
      exact .either strict (transform_mem_errors first error) (enumeration_mem_errors stops)
    | ok none fine => cases none.symm.trans stops

theorem attempt_ne_panic (path : Path) : attempt fs path ≠ .panic := by
  rw [attempt_of]
  exact Attempt.of_ne_panic

theorem attempt_ne_never (path : Path) : attempt fs path ≠ .never := by
  unfold attempt
  split <;> nofun

theorem job_stops (tuning : Tuning) (path : Path) : (job fs root o tuning).source.pull
    (leading ((TreeWalk.ofOptions root o).items fs)).length ≠ .item path := by
  change ((TreeWalk.ofOptions root o).source fs).pull _ ≠ _
  rw [(source_gives fs (TreeWalk.ofOptions root o)).last]
  exact ending_stops path

-- A digest of a tree that stays as it is takes only so many steps, stops nowhere short of its end, and
-- comes to what a walk in turn comes to.
theorem digest_agrees (fs : FileSystem) (root : Path) (workers : 0 < o.run.workers)
    (timeless : o.run.timeout = none) (untouched : caller = none ∨ caller = some {}) :
    ∃ tuning p, Pipeline.start? o.run caller = .ok (tuning, p) ∧
      (∃ bound, ∀ es t, Run.follow (job fs root o tuning) (client o) (Run.start p) es = some t →
        es.length ≤ bound) ∧
      ∀ t, Run.Reaches (job fs root o tuning) (client o) (Run.start p) t →
        (Run.Stuck (job fs root o tuning) (client o) t → Run.Over t) ∧
        (t.pipeline.caller = none ∨ t.pipeline.caller = some {} →
          ∀ r, t.result? = some r → ∃ result, conclude fs root o r = some result ∧
            Agrees fs o ((TreeWalk.ofOptions root o).items fs) (serial fs root o caller) result) := by
  have quiet : caller.any (·.isTripped) = false := by
    rcases untouched with rfl | rfl <;> rfl
  obtain ⟨tuning, started⟩ :=
    (Pipeline.start?_eq workers quiet : ∃ tuning, Pipeline.start? (α := Path) (β := Digest) _ _ = _)
  refine ⟨tuning, _, started, ?_, fun t path => ⟨?_, ?_⟩⟩
  · exact (Run.Reaches.here.sound started).bounded (job_stops tuning)
  · exact fun stuck => stuck.over (path.sound started) attempt_ne_never
  · intro still r returned
    have undisturbed : Run.Undisturbed (job fs root o tuning) (client o) t :=
      ⟨(Pipeline.start?_ok started).2.2.1.trans timeless, still, attempt_ne_panic, fun _ => rfl⟩
    have settled := (path.sound started).settled (path.provoked started) undisturbed
      (source_gives fs (TreeWalk.ofOptions root o)) ending_stops returned
    exact (serial_inTurn quiet).agrees (leading_ascending ..) settled

section Mixed
open Sample

def going : DigestOptions := { run := { workers := 3, capacity := some 0 }, keepGoing := true }

theorem going_serial : serial mixed.tree longTop going none = .ok
    { digests := [(plainAtTop, hashContent [122])]
      failures := [(inFolder, tooLong inFolder), (dashedAtTop, tooLong dashedAtTop)] } := by
  have plain : Plain (TreeWalk.ofOptions longTop going) := ⟨rfl, rfl⟩
  have items := mixed_items plain rfl rfl
  have skipped : (TreeWalk.ofOptions longTop going).skipped mixed.tree = [] := by
    rw [TreeWalk.skipped, mixed_outcomes plain rfl rfl]
    rfl
  rw [serial_done rfl (by rw [items, firstError?_ok]) (.inl rfl), items, leading_ok, mixed_gathered, skipped]

theorem digest_agrees_mixed :
    ∃ tuning p t r report,
      Pipeline.start? going.run none = .ok (tuning, p) ∧
      Run.Reaches (job mixed.tree longTop going tuning) (client going) (Run.start p) t ∧
      t.result? = some r ∧ conclude mixed.tree longTop going r = some (.ok report) ∧
      serial mixed.tree longTop going none = .ok report ∧
      report.digests = [(plainAtTop, hashContent [122])] ∧
      report.failures = [(inFolder, tooLong inFolder), (dashedAtTop, tooLong dashedAtTop)] := by
  obtain ⟨tuning, p, started, -, agrees⟩ :=
    digest_agrees mixed.tree longTop (show 0 < going.run.workers by decide) rfl (.inl rfl)
  obtain ⟨es, t, -, followed, atEnd⟩ :=
    (Run.Reaches.here.sound started).completes attempt_ne_never (job_stops tuning)
  have path := Run.follow_exact.mpr ⟨es, followed⟩
  obtain ⟨r, returned⟩ := Option.isSome_iff_exists.mp atEnd.returned
  obtain ⟨-, rfl, -, -⟩ := Pipeline.start?_ok started
  obtain ⟨result, concluded, same⟩ := (agrees t path).2 (.inl (path.unsigned rfl)) r returned
  rw [same.report _ going_serial] at concluded
  exact ⟨tuning, _, t, r, _, started, path, returned, concluded, going_serial, rfl, rfl⟩

end Mixed

end Digesting
end TreeDigest
