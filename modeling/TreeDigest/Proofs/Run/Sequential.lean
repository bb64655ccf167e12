import TreeDigest.Proofs.Path.Order
import TreeDigest.Proofs.Run.Termination
import TreeDigest.Proofs.Run.Undisturbed
namespace TreeDigest

namespace Collected
variable {c d : Collected α β} {transform : α → Attempt β} {xs : List α}

theorem Holds.unique (left : c.Holds transform xs) (right : d.Holds transform xs) :
    c.values.Perm d.values ∧ c.failures.Perm d.failures :=
  ⟨left.values.trans right.values.symm, left.failures.trans right.failures.symm⟩

theorem Holds.get?_eq [BEq α] (left : c.Holds transform xs) (right : d.Holds transform xs) {k : α}
    (agree : ∀ x ∈ xs, ∀ y ∈ xs, (k == x) = true → (k == y) = true → transform x = transform y) :
    c.get? k = d.get? k := by
  refine get?_perm (left.unique right).1 ?_
  rintro ⟨x, v⟩ one ⟨y, w⟩ two here there
  obtain ⟨present, value⟩ := left.made one
  obtain ⟨other, result⟩ := left.made two
  have equal := value.symm.trans ((agree x present y other here there).trans result)
  cases equal
  rfl

end Collected

namespace Run

theorem sequential_ok {policy : Policy} {shown : α → String} {os : List (Outcome α β)}
    (fine : policy = .failFast → ∀ o ∈ os, ∃ v, o.result = .ok v) (c : Collected α β) :
    sequential policy shown c os = .ok (os.foldl Collected.add c) := by
  induction os generalizing c with
  | nil => rfl
  | cons o rest ih =>
    have later := ih (fun policy other member => fine policy other (List.mem_cons_of_mem _ member))
      (c.add o)
    unfold sequential
    split
    · rename_i failed
      obtain ⟨v, value⟩ := fine rfl o (List.mem_cons_self ..)
      cases value.symm.trans failed
    · exact later

variable {f : α → Except String β} {xs : List α}

theorem sequential_holds {policy : Policy} (shown : α → String)
    (fine : policy = .failFast → ∀ x ∈ xs, ∃ v, f x = .ok v) :
    ∃ d : Collected α β, sequential policy shown {} (xs.map fun x => ⟨x, f x⟩) = .ok d ∧
      d.Holds (fun x => .of (f x)) xs := by
  refine ⟨_, sequential_ok ?_ {}, ?_⟩
  · intro first o member
    obtain ⟨x, present, rfl⟩ := List.mem_map.mp member
    exact fine first x present
  · rw [← List.foldr_reverse]
    apply Collected.of_holds
    have pairs : (xs.map fun x => (⟨x, f x⟩ : Outcome α β)).map (fun o => (o.item, some o.result)) =
        xs.map fun x => (x, (Attempt.of (f x)).result?) := by
      simp [Function.comp_def]
    rw [← pairs]
    exact (List.reverse_perm _).map _

variable {options : RunOptions} {caller : Option Signal} {tuning : Tuning} {p : Pipeline α β}

-- A run that is left alone comes to what the items come to one after another, whatever the number of
-- workers, the capacity and the order in which the threads move. Only for a key that stands for items
-- with different results is it left open which of these it keeps.
theorem refines_sequential [BEq α] {source : Enumerator α} {policy : Policy}
    {shown : α → String} {t : Run α β} {r : RunResult α β}
    (started : Pipeline.start? options caller = .ok (tuning, p)) (timeless : options.timeout = none)
    (gives : source.Gives xs .finished)
    (path : Reaches (Pipeline.job tuning source fun x => .of (f x)) { policy, shown } (start p) t)
    (untouched : t.pipeline.caller = none ∨ t.pipeline.caller = some {})
    (returned : t.result? = some r)
    (fine : policy = .failFast → ∀ x ∈ xs, ∃ v, f x = .ok v) :
    ∃ c d, r = .ok c ∧ sequential policy shown {} (xs.map fun x => ⟨x, f x⟩) = .ok d ∧
      c.values.Perm d.values ∧ c.failures.Perm d.failures ∧
      (∀ k, (c.get? k).isSome = (d.get? k).isSome) ∧
      (∀ k v, c.get? k = some v → ∃ x ∈ xs, (k == x) = true ∧ f x = .ok v) ∧
      ∀ k, (∀ x ∈ xs, ∀ y ∈ xs, (k == x) = true → (k == y) = true → f x = f y) →
        c.get? k = d.get? k := by
  have undisturbed : Undisturbed (Pipeline.job tuning source fun x => .of (f x)) { policy, shown } t :=
    ⟨(Pipeline.start?_ok started).2.2.1.trans timeless, untouched, fun _ => Attempt.of_ne_panic,
      fun _ => rfl⟩
  obtain ⟨d, taken, right⟩ := sequential_holds shown fine
  cases (path.sound started).settled (path.provoked started) undisturbed gives nofun returned with
  | @ok c finished left strict =>
    obtain ⟨values, failures⟩ := left.unique right
    refine ⟨c, d, rfl, taken, values, failures, Collected.isSome_get?_perm values, ?_, ?_⟩
    · intro k v found
      obtain ⟨x, member, same, value⟩ := left.found found
      exact ⟨x, member, same, Attempt.of_eq_value.mp value⟩
    · intro k agree
      refine left.get?_eq right ?_
      intro x here y there one two
      exact congrArg Attempt.of (agree x here y there one two)
  | rejected first member fails =>
    obtain ⟨v, value⟩ := fine first _ member
    have failed := Attempt.of_eq_error.mp fails
    cases value.symm.trans failed
  | broken ended => simp at ended

theorem refines_sequential_three :
    ∃ t c d, Reaches threeNumbers { policy := .keepGoing, shown := toString }
        (start (Pipeline.start ⟨2, 0, none⟩ (some {}))) t ∧
      t.result? = some (.ok c) ∧
      sequential .keepGoing toString {} ([3, 4, 3].map fun x => ⟨x, plusOne x⟩) = .ok d ∧
      c.values.Perm d.values ∧ c.failures.Perm d.failures ∧ c.get? 3 = d.get? 3 := by
  have carried : (Schedule.complete threeNumbers { policy := .keepGoing, shown := toString }
      (fun _ => false) (start (Pipeline.start ⟨2, 0, none⟩ (some {})))).map
        (fun t => (t.result?, t.pipeline.caller)) =
      some (some (.ok ⟨[(3, 4), (3, 4)], [(4, "four")]⟩), some {}) := by with_unfolding_all rfl
  obtain ⟨t, path, returned, untouched⟩ := Schedule.complete_returns carried
  obtain ⟨c, d, equal, taken, values, failures, -, -, same⟩ := refines_sequential (f := plusOne)
    (show Pipeline.start? ⟨2, none, some 0⟩ (some {}) = .ok (⟨2, 0, none⟩, _) from rfl) rfl
    (Enumerator.ofList_gives [3, 4, 3]) path (.inr untouched) returned (fun strict => by cases strict)
  exact ⟨t, c, d, path, equal ▸ returned, taken, values, failures,
    same 3 fun x _ y _ one two => by rw [← eq_of_beq one, ← eq_of_beq two]⟩

def spellings : List Path := [⟨[97, 47, 98]⟩, ⟨[97, 47, 47, 98]⟩]

def lengths : Job Path Nat :=
  Pipeline.job ⟨2, 2, none⟩ (.ofList (spellings.map .item)) fun p => .of (.ok p.bytes.length)

def overtaking : List Event :=
  ([.source .go, .source .go, .source .go, .source .message, .source .go, .source .go, .source .message,
    .worker 0 .message, .worker 1 .message, .worker 1 .go, .worker 1 .go, .worker 1 .message]
    : List Pipeline.Event).map .thread

-- Two spellings of one path are one key. Of two values the key has the one that came last, which here
-- depends on the order in which the workers move.
theorem spelling_overtaken :
    ∃ s t c d, Pipeline.start? ⟨2, none, some 2⟩ none =
        .ok (⟨2, 2, none⟩, (Pipeline.start ⟨2, 2, none⟩ none : Pipeline Path Nat)) ∧
      lengths.source.Gives spellings .finished ∧
      Reaches lengths { policy := .keepGoing, shown := Path.display }
        (start (Pipeline.start ⟨2, 2, none⟩ none)) s ∧
      s.pipeline.caller = none ∧ s.result? = some (.ok c) ∧
      Reaches lengths { policy := .keepGoing, shown := Path.display }
        (start (Pipeline.start ⟨2, 2, none⟩ none)) t ∧
      t.pipeline.caller = none ∧ t.result? = some (.ok d) ∧
      sequential .keepGoing Path.display {} (spellings.map fun p => ⟨p, .ok p.bytes.length⟩) = .ok d ∧
      c.get? ⟨[97, 47, 98]⟩ = some 3 ∧ d.get? ⟨[97, 47, 98]⟩ = some 4 := by
  have begun : ∃ m, follow lengths { policy := .keepGoing, shown := Path.display }
      (start (Pipeline.start ⟨2, 2, none⟩ none)) overtaking = some m ∧
      (Schedule.complete lengths { policy := .keepGoing, shown := Path.display } (fun _ => false) m).map
        (fun s => (s.result?, s.pipeline.caller)) =
      some (some (.ok ⟨[(⟨[97, 47, 98]⟩, 3), (⟨[97, 47, 47, 98]⟩, 4)], []⟩), none) := by
    with_unfolding_all exact ⟨_, rfl, rfl⟩
  have undisturbed : (Schedule.complete lengths { policy := .keepGoing, shown := Path.display }
      (fun _ => false) (start (Pipeline.start ⟨2, 2, none⟩ none))).map
        (fun t => (t.result?, t.pipeline.caller)) =
      some (some (.ok ⟨[(⟨[97, 47, 47, 98]⟩, 4), (⟨[97, 47, 98]⟩, 3)], []⟩), none) := by
    with_unfolding_all rfl
  obtain ⟨m, followed, carried⟩ := begun
  obtain ⟨s, later, returned, alone⟩ := Schedule.complete_returns carried
  obtain ⟨t, path, answered, quiet⟩ := Schedule.complete_returns undisturbed
  have overtaken := (follow_exact.mpr ⟨overtaking, followed⟩).trans later
  exact ⟨s, t, _, _, rfl, Enumerator.ofList_gives spellings, overtaken, alone, returned, path, quiet, answered,
    rfl, rfl, rfl⟩

end Run
end TreeDigest
