import TreeDigest.Proofs.Feed.Steps
namespace TreeDigest

namespace Enumerator

def Yields (source : Enumerator α) (xs : List α) : Prop :=
  ∀ i x, xs[i]? = some x → source.pull i = .item x

-- The source brings these items and then `last`. Whatever it would bring after that is never asked for.
structure Gives (source : Enumerator α) (xs : List α) (last : Pull α) : Prop where
  starts : source.starts = true
  yields : source.Yields xs
  last : source.pull xs.length = last

variable {source : Enumerator α} {xs ys : List α}

@[simp] theorem ofList_pull (pulls : List (Pull α)) (n : Nat) :
    (ofList pulls).pull n = pulls[n]?.getD .finished := by
  simp [ofList]

theorem ofList_gives (xs : List α) : (ofList (xs.map .item)).Gives xs .finished where
  starts := rfl
  yields i x found := by simp [found]
  last := by simp

theorem yields_nil : source.Yields [] := by
  intro i x found
  simp at found

theorem Yields.snoc {x : α} (yields : source.Yields xs) (next : source.pull xs.length = .item x) :
    source.Yields (xs ++ [x]) := by
  intro i y found
  by_cases inside : i < xs.length
  · rw [List.getElem?_append_left inside] at found
    exact yields i y found
  · rw [List.getElem?_append_right (by omega)] at found
    obtain ⟨bound, rfl⟩ := List.getElem?_eq_some_iff.mp found
    have position : i = xs.length := by simp at bound; omega
    subst position
    simpa using next

theorem Yields.length_le {n : Nat} (yields : source.Yields xs)
    (stops : ∀ x, source.pull n ≠ .item x) : xs.length ≤ n := by
  apply Classical.byContradiction
  intro longer
  exact stops _ (yields _ _ (List.getElem?_eq_getElem (by omega)))

theorem Yields.agree (one : source.Yields xs) (two : source.Yields ys)
    (same : xs.length = ys.length) : xs = ys := by
  apply List.ext_getElem?
  intro i
  cases left : xs[i]? with
  | none =>
    rw [List.getElem?_eq_none_iff] at left
    exact (List.getElem?_eq_none (by omega)).symm
  | some x =>
    have inside := (List.getElem?_eq_some_iff.mp left).1
    have right : ys[i]? = some ys[i] := List.getElem?_eq_getElem (by omega)
    have answers := (one i x left).symm.trans (two i _ right)
    cases answers
    exact right.symm

end Enumerator

def SourceEnd.Truthful (source : Enumerator α) (count : Nat) : SourceEnd → Prop
  | .completed n => n = count ∧ source.pull count = .finished
  | .cancelled n => n = count
  | .failed m =>
    source.pull count = .error m ∨ source.pull count = .panic ∧ m = Feed.panicMessage

namespace Feed

def Standing (source : Enumerator α) (f : Feed α) : Prop :=
  match f.phase with
  | .starting => f.asked = 0 ∧ f.emitted = [] ∧ f.reports = []
  | .asking => source.starts = true ∧ f.asked = f.count ∧ f.reports = []
  | .asked answer =>
    source.starts = true ∧ f.asked = f.count + 1 ∧ f.reports = [] ∧ source.pull f.count = answer
  | .offering x =>
    source.starts = true ∧ f.asked = f.count + 1 ∧ f.reports = [] ∧ source.pull f.count = .item x
  | .reporting ended => source.starts = true ∧ f.reports = [] ∧ ended.Truthful source f.count
  | .recording | .waking =>
    source.starts = true ∧ ∃ m, f.reports = [.failed m] ∧
      (SourceEnd.failed m).Truthful source f.count
  | .closing | .exited =>
    (source.starts = false ∧ f.emitted = [] ∧ f.reports = []) ∨
      (source.starts = true ∧ ∃ ended, f.reports = [ended] ∧ ended.Truthful source f.count)

def Doors (f : Feed α) : Prop :=
  match f.phase with
  | .closing => f.itemsOpen = true ∨ f.statusOpen = true
  | .exited => f.itemsOpen = false ∧ f.statusOpen = false
  | _ => f.itemsOpen = true ∧ f.statusOpen = true

structure Honest (source : Enumerator α) (f : Feed α) : Prop where
  yields : source.Yields f.emitted.reverse
  standing : f.Standing source
  doors : f.Doors

variable {source : Enumerator α} {capacity : Option Nat} {f g : Feed α} {s t : Signal}

theorem honest_fresh (receivers : Nat) : ({ receivers } : Feed α).Honest source :=
  ⟨Enumerator.yields_nil, ⟨rfl, rfl, rfl⟩, rfl, rfl⟩

theorem yields_placed {x : α} (yields : source.Yields f.emitted.reverse)
    (next : source.pull f.count = .item x) : source.Yields (x :: f.emitted).reverse := by
  rw [List.reverse_cons]
  exact yields.snoc (by simpa [count] using next)

theorem report_standing {ended : SourceEnd} (starts : source.starts = true)
    (fresh : f.reports = []) (truth : ended.Truthful source f.count) :
    (f.report ended).Standing source := by
  cases ended with
  | completed n => exact .inr ⟨starts, _, by simp [report, fresh], truth⟩
  | cancelled n => exact .inr ⟨starts, _, by simp [report, fresh], truth⟩
  | failed m => exact ⟨starts, m, by simp [report, fresh], truth⟩

theorem report_doors {ended : SourceEnd} (items : f.itemsOpen = true) (status : f.statusOpen = true) :
    (f.report ended).Doors := by
  cases ended with
  | completed n => exact .inl items
  | cancelled n => exact .inl items
  | failed m => exact ⟨items, status⟩

theorem Honest.step (honest : f.Honest source) (step : Step source capacity f s g t) :
    g.Honest source := by
  obtain ⟨yields, standing, doors⟩ := honest
  unfold Standing at standing
  unfold Doors at doors
  cases step with
  | start phase starts =>
    simp only [phase] at standing doors
    obtain ⟨asked, emitted, reports⟩ := standing
    exact ⟨yields, ⟨starts, by simp [count, asked, emitted], reports⟩, doors⟩
  | breakDown phase broken =>
    simp only [phase] at standing doors
    exact ⟨yields, .inl ⟨broken, standing.2⟩, .inl doors.1⟩
  | ask phase =>
    simp only [phase] at standing doors
    obtain ⟨starts, asked, reports⟩ := standing
    refine ⟨yields, ⟨starts, by simp [asked, count], reports, ?_⟩, doors⟩
    rw [asked]; rfl
  | panic phase =>
    simp only [phase] at standing doors
    obtain ⟨starts, -, reports, next⟩ := standing
    exact ⟨yields, ⟨starts, reports, .inr ⟨next, rfl⟩⟩, doors⟩
  | finish phase =>
    simp only [phase] at standing doors
    obtain ⟨starts, -, reports, next⟩ := standing
    exact ⟨yields, ⟨starts, reports, rfl, next⟩, doors⟩
  | accept phase quiet =>
    simp only [phase] at standing doors
    exact ⟨yields, standing, doors⟩
  | fail phase quiet =>
    simp only [phase] at standing doors
    obtain ⟨starts, -, reports, next⟩ := standing
    exact ⟨yields, ⟨starts, reports, .inl next⟩, doors⟩
  | cutOff phase tripped =>
    simp only [phase] at standing doors
    obtain ⟨starts, -, reports, -⟩ := standing
    exact ⟨yields, ⟨starts, reports, rfl⟩, doors⟩
  | abandon phase | interrupt phase =>
    simp only [phase] at standing doors
    obtain ⟨starts, -, reports, -⟩ := standing
    exact ⟨yields, ⟨starts, reports, rfl⟩, doors⟩
  | place phase room =>
    simp only [phase] at standing doors
    obtain ⟨starts, asked, reports, next⟩ := standing
    exact ⟨yields_placed yields next, ⟨starts, asked, reports⟩, doors⟩
  | report phase =>
    simp only [phase] at standing doors
    obtain ⟨starts, reports, truth⟩ := standing
    exact ⟨yields, report_standing starts reports truth, report_doors doors.1 doors.2⟩
  | record phase =>
    simp only [phase] at standing doors
    exact ⟨yields, standing, doors⟩
  | wake phase =>
    simp only [phase] at standing doors
    obtain ⟨starts, m, reported, truth⟩ := standing
    exact ⟨yields, .inr ⟨starts, _, reported, truth⟩, .inl doors.1⟩
  | closeItems phase isOpen =>
    simp only [phase] at standing doors
    refine ⟨yields, ?_, ?_⟩
    · cases status : f.statusOpen <;> simpa [Standing, Feed.closeItems, count, status] using standing
    · cases status : f.statusOpen <;> simp [Doors, Feed.closeItems, status]
  | closeStatus phase isOpen =>
    simp only [phase] at standing doors
    refine ⟨yields, ?_, ?_⟩
    · cases items : f.itemsOpen <;> simpa [Standing, Feed.closeStatus, count, items] using standing
    · cases items : f.itemsOpen <;> simp [Doors, Feed.closeStatus, items]

theorem Honest.take {x : α} (honest : f.Honest source) (taken : Takes capacity f x g) :
    g.Honest source := by
  obtain ⟨yields, standing, doors⟩ := honest
  cases taken with
  | queued popped => exact ⟨yields, standing, doors⟩
  | offered empty rendezvous phase =>
    unfold Standing at standing
    unfold Doors at doors
    simp only [phase] at standing doors
    obtain ⟨starts, asked, reports, next⟩ := standing
    exact ⟨yields_placed yields next, ⟨starts, asked, reports⟩, doors⟩

theorem Honest.hangUp (honest : f.Honest source) : f.hangUp.Honest source := by
  unfold Feed.hangUp
  split
  · exact ⟨honest.yields, honest.standing, honest.doors⟩
  · exact ⟨honest.yields, honest.standing, honest.doors⟩

theorem Honest.closed (honest : f.Honest source) (closed : f.itemsOpen = false) :
    f.phase = .closing ∨ f.phase = .exited := by
  have doors := honest.doors
  unfold Doors at doors
  cases phase : f.phase <;> simp_all

theorem Honest.reported (honest : f.Honest source) (starts : source.starts = true)
    (atEnd : f.itemsOpen = false ∨ f.statusOpen = false) : ∃ ended, f.reports = [ended] := by
  obtain ⟨-, standing, doors⟩ := honest
  unfold Standing at standing
  unfold Doors at doors
  cases phase : f.phase <;> simp_all
  all_goals
    obtain ⟨ended, reports, -⟩ := standing
    exact ⟨ended, reports⟩

theorem Honest.truthful {ended : SourceEnd} (honest : f.Honest source) (reported : ended ∈ f.reports) :
    f.reports = [ended] ∧ ended.Truthful source f.count ∧ source.starts = true := by
  obtain ⟨-, standing, -⟩ := honest
  unfold Standing at standing
  cases phase : f.phase with
  | starting | asking | asked answer | offering x | reporting ended =>
    simp_all
  | recording | waking =>
    simp only [phase] at standing
    obtain ⟨starts, m, reports, truth⟩ := standing
    rw [reports, List.mem_singleton] at reported
    subst reported
    exact ⟨reports, truth, starts⟩
  | closing | exited =>
    simp only [phase] at standing
    obtain ⟨-, -, reports⟩ | ⟨starts, only, reports, truth⟩ := standing
    · simp [reports] at reported
    · rw [reports, List.mem_singleton] at reported
      subst reported
      exact ⟨reports, truth, starts⟩

end Feed
end TreeDigest
