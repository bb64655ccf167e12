import TreeDigest.Glob
namespace TreeDigest.Glob

section Patterns
variable {p t : List Char} {a c : Char}

theorem matches_nil : Matches [] t ↔ t = [] := by
  constructor
  · intro matched
    cases matched
    rfl
  · rintro rfl
    exact .done

theorem matches_star : Matches ('*' :: p) t ↔ ∃ k, Matches p (t.drop k) := by
  constructor
  · intro matched
    cases matched with
    | star absorbed rest => exact ⟨absorbed.length, by simpa using rest⟩
    | same star _ _ => exact absurd rfl star
  · rintro ⟨k, rest⟩
    have matched := Matches.star (t.take k) rest
    rwa [List.take_append_drop] at matched

theorem matches_one : Matches ('?' :: p) (c :: t) ↔ Matches p t := by
  constructor
  · intro matched
    cases matched with
    | one _ rest => exact rest
    | same _ one _ => exact absurd rfl one
  · exact .one c

theorem matches_same (star : a ≠ '*') (one : a ≠ '?') :
    Matches (a :: p) (c :: t) ↔ a = c ∧ Matches p t := by
  constructor
  · intro matched
    generalize whole : c :: t = text at matched
    cases matched with
    | star => exact absurd rfl star
    | one => exact absurd rfl one
    | same _ _ rest =>
      obtain ⟨rfl, rfl⟩ := List.cons.inj whole
      exact ⟨rfl, rest⟩
  · rintro ⟨rfl, rest⟩
    exact .same star one rest

theorem Matches.starless {front back : List Char} (plain : ∀ x ∈ front, x ≠ '*')
    (matched : Matches (front ++ back) t) :
    front.length ≤ t.length ∧ Matches back (t.drop front.length) := by
  induction front generalizing t with
  | nil => exact ⟨Nat.zero_le _, matched⟩
  | cons x front ih =>
    have later : ∀ y ∈ front, y ≠ '*' := fun y member => plain y (List.mem_cons_of_mem _ member)
    cases matched with
    | star => exact absurd rfl (plain _ (List.mem_cons_self ..))
    | one _ rest | same _ _ rest =>
      obtain ⟨short, matched⟩ := ih later rest
      exact ⟨Nat.succ_le_succ short, matched⟩

theorem matches_stars : Matches p [] ↔ p.all (· == '*') = true := by
  induction p with
  | nil => simp [matches_nil]
  | cons a p ih =>
    by_cases star : a = '*'
    · subst star
      simp [matches_star, ih]
    · have never : ¬ Matches (a :: p) [] := by
        generalize whole : [] = text
        intro matched
        cases matched with
        | star => exact star rfl
        | one | same => cases whole
      simp [never, star]

end Patterns

variable {pattern text : Array Char} {c d : Cursor}

-- Between the last star and the cursor there is no other star, and the pattern has taken up the text
-- one by one since the star stopped absorbing.
def Cursor.Tidy (pattern : Array Char) (c : Cursor) : Prop :=
  ∀ star absorbed, c.backtrack = some (star, absorbed) → ∃ front : List Char,
    pattern.toList.drop (star + 1) = front ++ pattern.toList.drop c.pattern ∧
    (∀ x ∈ front, x ≠ '*') ∧ c.text = absorbed + front.length

-- What the loop has not given up: a match from where it stands, or one in which the last star absorbs
-- more than it has so far. Earlier stars do not come into it.
def Cursor.Open (pattern text : Array Char) (c : Cursor) : Prop :=
  Matches (pattern.toList.drop c.pattern) (text.toList.drop c.text) ∨
    ∃ star absorbed more, c.backtrack = some (star, absorbed) ∧
      Matches (pattern.toList.drop (star + 1)) (text.toList.drop (absorbed + 1 + more))

theorem drop_of_getElem? {xs : Array Char} {i : Nat} {x : Char} (here : xs[i]? = some x) :
    xs.toList.drop i = x :: xs.toList.drop (i + 1) := by
  obtain ⟨inside, rfl⟩ := Array.getElem?_eq_some_iff.mp here
  exact List.drop_eq_getElem_cons inside

theorem drop_of_lt {xs : Array Char} {i : Nat} (inside : i < xs.size) :
    xs.toList.drop i = xs[i] :: xs.toList.drop (i + 1) :=
  drop_of_getElem? (Array.getElem?_eq_getElem inside)

-- A new star takes the place of the last one. Whatever the old one could still absorb, the new one can
-- absorb on top of what lies between them.
theorem Cursor.Tidy.star (tidy : c.Tidy pattern) (here : pattern[c.pattern]? = some '*')
    (still : c.Open pattern text) : Matches (pattern.toList.drop c.pattern) (text.toList.drop c.text) := by
  rcases still with matched | ⟨star, absorbed, more, last, matched⟩
  · exact matched
  · obtain ⟨front, between, plain, stands⟩ := tidy star absorbed last
    rw [between] at matched
    have rest := (matched.starless plain).2
    rw [drop_of_getElem? here, matches_star] at rest ⊢
    obtain ⟨k, rest⟩ := rest
    refine ⟨1 + more + k, ?_⟩
    rw [List.drop_drop, List.drop_drop] at rest
    rwa [List.drop_drop, show c.text + (1 + more + k) = absorbed + 1 + more + (front.length + k) by omega]

theorem open_star (tidy : c.Tidy pattern) (here : pattern[c.pattern]? = some '*')
    (own : d.pattern = c.pattern + 1 ∧ d.text = c.text ∧ d.backtrack = some (c.pattern, c.text)) :
    d.Open pattern text ↔ c.Open pattern text := by
  obtain ⟨forward, stays, last⟩ := own
  unfold Cursor.Open
  rw [forward, stays, last]
  constructor
  · intro still
    left
    rw [drop_of_getElem? here, matches_star]
    rcases still with matched | ⟨_, _, more, ⟨⟩, matched⟩
    · exact ⟨0, matched⟩
    · exact ⟨1 + more, by rwa [List.drop_drop, ← Nat.add_assoc]⟩
  · intro still
    have whole := tidy.star here still
    rw [drop_of_getElem? here, matches_star] at whole
    obtain ⟨k, matched⟩ := whole
    rw [List.drop_drop] at matched
    cases k with
    | zero => exact .inl matched
    | succ k => exact .inr ⟨_, _, k, rfl, by rwa [Nat.add_assoc, Nat.add_comm 1 k]⟩

theorem matches_next {x : Char} (h : c.text < text.size) (here : pattern[c.pattern]? = some x)
    (plain : x ≠ '*') :
    Matches (pattern.toList.drop c.pattern) (text.toList.drop c.text) ↔
      (x = '?' ∨ x = text[c.text]) ∧
        Matches (pattern.toList.drop (c.pattern + 1)) (text.toList.drop (c.text + 1)) := by
  rw [drop_of_getElem? here, drop_of_lt h]
  by_cases one : x = '?'
  · simp [one, matches_one]
  · simp [one, matches_same plain one]

-- Where the last star falls back, nothing that it has absorbed so far leads to a match.
theorem open_back {star absorbed : Nat}
    (stuck : ¬ Matches (pattern.toList.drop c.pattern) (text.toList.drop c.text))
    (last : c.backtrack = some (star, absorbed))
    (own : d.pattern = star + 1 ∧ d.text = absorbed + 1 ∧ d.backtrack = some (star, absorbed + 1)) :
    d.Open pattern text ↔ c.Open pattern text := by
  obtain ⟨back, again, next⟩ := own
  unfold Cursor.Open
  rw [back, again, next, last, or_iff_right stuck]
  constructor
  · rintro (matched | ⟨_, _, more, ⟨⟩, matched⟩)
    · exact ⟨_, _, 0, rfl, matched⟩
    · exact ⟨_, _, 1 + more, rfl, by rwa [← Nat.add_assoc]⟩
  · rintro ⟨_, _, more, ⟨⟩, matched⟩
    cases more with
    | zero => exact .inl matched
    | succ more => exact .inr ⟨_, _, more, rfl, by rwa [Nat.add_assoc (absorbed + 1), Nat.add_comm 1]⟩

theorem matches_stuck (h : c.text < text.size) (star : pattern[c.pattern]? ≠ some '*')
    (other : ¬ (pattern[c.pattern]? = some '?' ∨ pattern[c.pattern]? = some text[c.text])) :
    ¬ Matches (pattern.toList.drop c.pattern) (text.toList.drop c.text) := by
  cases here : pattern[c.pattern]? with
  | none =>
    have beyond : pattern.toList.drop c.pattern = [] :=
      List.drop_eq_nil_of_le (Array.getElem?_eq_none_iff.mp here)
    simp [beyond, drop_of_lt h, matches_nil]
  | some x =>
    rw [here] at star other
    rw [matches_next h here (fun same => star (same ▸ rfl))]
    rintro ⟨taken, -⟩
    exact other (taken.imp (congrArg some) (congrArg some))

theorem tidy_behind {star : Nat} (last : d.backtrack = some (star, d.text))
    (behind : d.pattern = star + 1) : d.Tidy pattern := by
  intro _ _ own
  cases last.symm.trans own
  exact ⟨[], by rw [behind, List.nil_append], nofun, rfl⟩

theorem Cursor.Tidy.next {x : Char} (tidy : c.Tidy pattern) (here : pattern[c.pattern]? = some x)
    (plain : x ≠ '*')
    (own : d.pattern = c.pattern + 1 ∧ d.text = c.text + 1 ∧ d.backtrack = c.backtrack) :
    d.Tidy pattern := by
  obtain ⟨forward, taken, same⟩ := own
  intro star absorbed last
  obtain ⟨front, between, unstarred, stands⟩ := tidy star absorbed (same ▸ last)
  refine ⟨front ++ [x], ?_, ?_, ?_⟩
  · rw [between, drop_of_getElem? here, forward, List.append_assoc, List.singleton_append]
  · simpa [or_imp, forall_and, plain] using unstarred
  · simp [taken, stands, Nat.add_assoc]

theorem advance_open {h : c.text < text.size} (tidy : c.Tidy pattern)
    (moved : advance pattern text c h = some d) :
    d.Tidy pattern ∧ (d.Open pattern text ↔ c.Open pattern text) := by
  unfold advance at moved
  split at moved
  · rename_i here
    cases moved
    exact ⟨tidy_behind rfl rfl, open_star tidy here ⟨rfl, rfl, rfl⟩⟩
  · rename_i star
    split at moved
    · rename_i taken
      cases moved
      obtain ⟨x, here, same⟩ : ∃ x, pattern[c.pattern]? = some x ∧ (x = '?' ∨ x = text[c.text]) := by
        rcases taken with own | own
        · exact ⟨_, own, .inl rfl⟩
        · exact ⟨_, own, .inr rfl⟩
      have plain : x ≠ '*' := fun own => star (own ▸ here)
      refine ⟨tidy.next here plain ⟨rfl, rfl, rfl⟩, ?_⟩
      unfold Cursor.Open
      rw [matches_next h here plain, and_iff_right same]
    · rename_i other
      split at moved
      · rename_i last absorbed own
        cases moved
        exact ⟨tidy_behind rfl rfl, open_back (matches_stuck h star other) own ⟨rfl, rfl, rfl⟩⟩
      · cases moved

theorem advance_none {h : c.text < text.size} (stopped : advance pattern text c h = none) :
    ¬ c.Open pattern text := by
  unfold advance at stopped
  split at stopped
  · cases stopped
  · rename_i star
    split at stopped
    · cases stopped
    · rename_i other
      split at stopped
      · cases stopped
      · rename_i none
        rintro (matched | ⟨_, _, _, last, -⟩)
        · exact matches_stuck h star other matched
        · cases none.symm.trans last

-- At the end of the text the last star has nothing more to absorb: the pattern behind it needs at least
-- the characters that it has taken up already.
theorem open_end (tidy : c.Tidy pattern) (beyond : text.size ≤ c.text) :
    c.Open pattern text ↔ (pattern.toList.drop c.pattern).all (· == '*') = true := by
  have nothing {i : Nat} (beyond : text.size ≤ i) : text.toList.drop i = [] :=
    List.drop_eq_nil_of_le beyond
  unfold Cursor.Open
  rw [nothing beyond, matches_stars, or_iff_left_of_imp]
  rintro ⟨star, absorbed, more, last, matched⟩
  obtain ⟨front, between, plain, stands⟩ := tidy star absorbed last
  rw [between] at matched
  obtain ⟨short, rest⟩ := matched.starless plain
  simp only [List.length_drop, Array.length_toList] at short
  rw [List.drop_drop, nothing (by omega)] at rest
  exact matches_stars.mp rest

theorem runFrom_matched (tidy : c.Tidy pattern) :
    (runFrom pattern text c).matched = true ↔ c.Open pattern text := by
  fun_induction runFrom pattern text c with
  | case1 c h d moved r ih =>
    obtain ⟨still, same⟩ := advance_open tidy moved
    exact (ih still).trans same
  | case2 c h stopped => simp [advance_none stopped]
  | case3 c beyond => exact (open_end tidy (Nat.le_of_not_lt beyond)).symm

theorem run_matched (p t : List Char) : (run p t).matched = true ↔ Matches p t := by
  have tidy : start.Tidy p.toArray := nofun
  rw [run, runFrom_matched tidy]
  simp [Cursor.Open, start]

end TreeDigest.Glob

namespace TreeDigest

-- A text matches a pattern exactly if it does so character by character, with stars for whatever lies
-- between. That the loop only ever goes back to the last star makes no difference.
theorem globMatch_iff (pattern text : String) :
    globMatch pattern text = true ↔ Glob.Matches (Glob.body pattern) text.toList :=
  Glob.run_matched ..

theorem globMatch_unlike {pattern text : String} {p c : Char} {ps cs : List Char}
    (body : Glob.body pattern = p :: ps) (chars : text.toList = c :: cs) (star : p ≠ '*') (one : p ≠ '?')
    (other : p ≠ c) : globMatch pattern text = false := by
  rw [Bool.eq_false_iff]
  intro matched
  have told := (Glob.run_matched ..).mp matched
  rw [body, chars, Glob.matches_same star one] at told
  exact other told.1

end TreeDigest
