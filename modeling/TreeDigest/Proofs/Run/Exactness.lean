import TreeDigest.Proofs.Run.Results
import TreeDigest.Proofs.Run.Schedule
namespace TreeDigest

namespace Attempt

def value? : Attempt β → Option β
  | .value v => some v
  | _ => none

def failure? : Attempt β → Option String
  | .error m => some m
  | _ => none

def of : Except String β → Attempt β
  | .ok v => .value v
  | .error m => .error m

variable {a : Attempt β}

@[simp] theorem result?_of {r : Except String β} : (of r).result? = some r := by
  cases r <;> rfl

@[simp] theorem value?_of {r : Except String β} : (of r).value? = r.toOption := by
  cases r <;> rfl

@[simp] theorem failure?_of {r : Except String β} : (of r).failure? = failureOf r := by
  cases r <;> rfl

theorem of_ne_panic {r : Except String β} : of r ≠ .panic := by
  cases r <;> nofun

theorem of_eq_value {r : Except String β} {v : β} : of r = .value v ↔ r = .ok v := by
  cases r <;> simp [of]

theorem of_eq_error {r : Except String β} {m : String} : of r = .error m ↔ r = .error m := by
  cases r <;> simp [of]

@[simp] theorem value?_eq_some {v : β} : a.value? = some v ↔ a = .value v := by
  cases a <;> simp [value?]

end Attempt

namespace Collected

-- A collection that holds what a transform makes of these items: a value for each one that comes out
-- well, a failure for each one that fails, and nothing else.
structure Holds (c : Collected α β) (transform : α → Attempt β) (xs : List α) : Prop where
  settled : ∀ x ∈ xs, (∃ v, transform x = .value v) ∨ ∃ m, transform x = .error m
  values : c.values.Perm (xs.filterMap fun x => (transform x).value?.map (x, ·))
  failures : c.failures.Perm (xs.filterMap fun x => (transform x).failure?.map (x, ·))

variable {transform : α → Attempt β} {xs : List α} {seen : List (Outcome α β)} {c : Collected α β}

theorem read_perm
    (same : (seen.map fun o => (o.item, some o.result)).Perm
      (xs.map fun x => (x, (transform x).result?)))
    (read : Except String β → Option γ) :
    (seen.filterMap fun o => (read o.result).map (o.item, ·)).Perm
      (xs.filterMap fun x => ((transform x).result?.bind read).map (x, ·)) := by
  have both := same.filterMap fun e => (e.2.bind read).map (e.1, ·)
  simpa [List.filterMap_map, Function.comp_def] using both

theorem of_holds
    (same : (seen.map fun o => (o.item, some o.result)).Perm
      (xs.map fun x => (x, (transform x).result?))) :
    (of seen).Holds transform xs := by
  refine ⟨?_, ?_, ?_⟩
  · intro x member
    have placed := same.mem_iff.mpr (List.mem_map_of_mem member)
    obtain ⟨o, -, equal⟩ := List.mem_map.mp placed
    have result : some o.result = (transform x).result? := congrArg Prod.snd equal
    cases attempt : transform x with
    | value v => exact .inl ⟨v, rfl⟩
    | error m => exact .inr ⟨m, rfl⟩
    | panic | never => simp [attempt, Attempt.result?] at result
  · have same' (x : α) : (transform x).value? = (transform x).result?.bind (·.toOption) := by
      cases transform x <;> rfl
    rw [of_values]
    simp only [same']
    exact read_perm same _
  · have same' (x : α) : (transform x).failure? = (transform x).result?.bind failureOf := by
      cases transform x <;> rfl
    rw [of_failures]
    simp only [same']
    exact read_perm same _

theorem Holds.made (holds : c.Holds transform xs) {x : α} {v : β} (member : (x, v) ∈ c.values) :
    x ∈ xs ∧ transform x = .value v := by
  obtain ⟨y, present, made⟩ := List.mem_filterMap.mp (holds.values.mem_iff.mp member)
  obtain ⟨w, value, equal⟩ := Option.map_eq_some_iff.mp made
  cases equal
  exact ⟨present, Attempt.value?_eq_some.mp value⟩

theorem Holds.found [BEq α] (holds : c.Holds transform xs) {y : α} {v : β}
    (found : c.get? y = some v) : ∃ x ∈ xs, (y == x) = true ∧ transform x = .value v := by
  obtain ⟨x, same, member⟩ := get?_eq_some found
  obtain ⟨present, value⟩ := holds.made member
  exact ⟨x, present, same, value⟩

theorem Holds.present [BEq α] [ReflBEq α] (holds : c.Holds transform xs) {x : α} {v : β}
    (member : x ∈ xs) (value : transform x = .value v) : (c.get? x).isSome = true := by
  cases found : c.get? x with
  | some w => rfl
  | none =>
    have placed : (x, v) ∈ c.values :=
      holds.values.mem_iff.mpr (List.mem_filterMap.mpr ⟨x, member, by simp [value, Attempt.value?]⟩)
    have away := get?_eq_none.mp found _ placed
    simp at away

theorem Holds.fine (holds : c.Holds transform xs) (none : c.failures = []) :
    ∀ x ∈ xs, ∃ v, transform x = .value v := by
  intro x member
  apply (holds.settled x member).resolve_right
  rintro ⟨m, error⟩
  have placed : (x, m) ∈ c.failures := holds.failures.mem_iff.mpr
    (List.mem_filterMap.mpr ⟨x, member, by simp [error, Attempt.failure?]⟩)
  simp [none] at placed

end Collected

namespace Run
variable {options : RunOptions} {caller : Option Signal} {tuning : Tuning} {p : Pipeline α β}

theorem Sound.ok {job : Job α β} {client : Client α β} {s : Run α β} {c : Collected α β}
    (sound : Sound job client s) (returned : s.result? = some (.ok c)) :
    ∃ xs, job.source.Gives xs .finished ∧ c.Holds job.transform xs ∧
      (client.policy = .failFast → c.failures = []) := by
  obtain ⟨⟨n, verdict⟩, rfl, fine⟩ := sound.justified returned
  obtain ⟨xs, gives, -, same⟩ := sound.pipeline.exact verdict
  refine ⟨xs, gives, Collected.of_holds same, ?_⟩
  intro policy
  rw [Collected.of_failures, List.filterMap_eq_nil_iff]
  exact fun o member => Outcome.failure?_eq_none.mpr (fine policy o member)

-- Whatever the threads do and in whatever order: a count is a verdict only on a source that came to its
-- end after that many items, all of whose outcomes have been handed over. So a call that returns well
-- holds what the transform makes of every item, and none of them failed where the first failure counts.
theorem ok_exact [BEq α] [ReflBEq α] (job : Job α β)
    (started : Pipeline.start? options caller = .ok (tuning, p)) :
    (∀ t n, Pipeline.Reaches job p t → .ok n ∈ t.stream.verdicts →
      ∃ xs, job.source.Gives xs .finished ∧ xs.length = n ∧
        (t.stream.received.map fun o => (o.item, some o.result)).Perm
          (xs.map fun x => (x, (job.transform x).result?))) ∧
    ∀ client t c, Reaches job client (start p) t → t.result? = some (.ok c) →
      ∃ xs, job.source.Gives xs .finished ∧ c.Holds job.transform xs ∧
        (client.policy = .failFast → ∀ x ∈ xs, ∃ v, job.transform x = .value v) ∧
        (∀ y v, c.get? y = some v → ∃ x ∈ xs, (y == x) = true ∧ job.transform x = .value v) ∧
        ∀ x ∈ xs, (∃ v, job.transform x = .value v) → (c.get? x).isSome = true := by
  refine ⟨fun t n path verdict => (path.sound started).exact verdict, ?_⟩
  intro client t c path returned
  obtain ⟨xs, gives, holds, strict⟩ := (path.sound started).ok returned
  refine ⟨xs, gives, holds, fun policy => holds.fine (strict policy), fun y v => holds.found, ?_⟩
  rintro x member ⟨v, value⟩
  exact holds.present member value

def plusOne (x : Nat) : Except String Nat := if x = 4 then .error "four" else .ok (x + 1)

def threeNumbers : Job Nat Nat :=
  Pipeline.job ⟨2, 0, none⟩ (.ofList [.item 3, .item 4, .item 3]) fun x => .of (plusOne x)

theorem ok_exact_three :
    ∃ t xs, Reaches threeNumbers ⟨.keepGoing, toString, fun _ => false⟩
        (start (Pipeline.start ⟨2, 0, none⟩ none)) t ∧
      t.result? = some (.ok ⟨[(3, 4), (3, 4)], [(4, "four")]⟩) ∧
      threeNumbers.source.Gives xs .finished ∧
      [(3, 4), (3, 4)].Perm (xs.filterMap fun x => (threeNumbers.transform x).value?.map (x, ·)) := by
  have carried : (Schedule.complete threeNumbers ⟨.keepGoing, toString, fun _ => false⟩
      (fun _ => false) (start (Pipeline.start ⟨2, 0, none⟩ none))).bind result? =
        some (.ok ⟨[(3, 4), (3, 4)], [(4, "four")]⟩) := by with_unfolding_all rfl
  obtain ⟨t, carried, returned⟩ := Option.bind_eq_some_iff.mp carried
  have path := (Schedule.complete_reaches carried).1
  have both := ok_exact threeNumbers
    (show Pipeline.start? ⟨2, none, some 0⟩ none = .ok (⟨2, 0, none⟩, _) from rfl)
  obtain ⟨xs, gives, holds, -⟩ := both.2 _ _ _ path returned
  exact ⟨t, xs, path, returned, gives, holds.values⟩

end Run
end TreeDigest
