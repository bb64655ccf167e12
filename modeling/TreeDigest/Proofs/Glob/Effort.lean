import TreeDigest.Glob
namespace TreeDigest.Glob

inductive Comes (pattern text : Array Char) : Nat → Cursor → Prop where
  | start : Comes pattern text 0 start
  | next {n : Nat} {c d : Cursor} (h : c.text < text.size) (before : Comes pattern text n c)
      (moved : advance pattern text c h = some d) : Comes pattern text (n + 1) d

def Cursor.Last (pattern text : Array Char) (c : Cursor) : Prop :=
  text.size ≤ c.text ∨ ∃ h : c.text < text.size, advance pattern text c h = none

structure Cursor.Inside (pattern text : Array Char) (c : Cursor) : Prop where
  pattern_le : c.pattern ≤ pattern.size
  text_le : c.text ≤ text.size
  star_lt : ∀ star absorbed, c.backtrack = some (star, absorbed) → star < pattern.size

-- How often a star can still take up one character more. A new star does not bring any of that back, since
-- it begins where the text has come to.
def Cursor.retries (size : Nat) (c : Cursor) : Nat := size - (c.backtrack.map Prod.snd).getD 0

-- What the loop can still do: what is left of the pattern, the whole pattern for each retry, and the
-- iteration in which it gives up.
def Cursor.effort (pattern text : Array Char) (c : Cursor) : Nat :=
  c.retries text.size * pattern.size + (pattern.size - c.pattern) + 1

variable {pattern text : Array Char} {c d : Cursor} {n : Nat}

theorem start_inside : start.Inside pattern text :=
  ⟨Nat.zero_le _, Nat.zero_le _, nofun⟩

theorem start_effort :
    start.effort pattern text ≤ (pattern.size + 1) * (text.size + 1) := by
  calc start.effort pattern text = text.size * pattern.size + pattern.size + 1 := rfl
    _ ≤ text.size * pattern.size + pattern.size + 1 + text.size := Nat.le_add_right _ _
    _ = (pattern.size + 1) * (text.size + 1) := by
      rw [Nat.add_mul, Nat.mul_add, Nat.mul_comm pattern.size]
      omega

theorem advance_cases {h : c.text < text.size} (moved : advance pattern text c h = some d) :
    (c.pattern < pattern.size ∧ d.pattern = c.pattern + 1 ∧ d.text = c.text ∧
      d.backtrack = some (c.pattern, c.text)) ∨
    (c.pattern < pattern.size ∧ d.pattern = c.pattern + 1 ∧ d.text = c.text + 1 ∧
      d.backtrack = c.backtrack) ∨
    ∃ star absorbed, c.backtrack = some (star, absorbed) ∧ d.pattern = star + 1 ∧
      d.text = absorbed + 1 ∧ d.backtrack = some (star, absorbed + 1) := by
  have within {x : Char} (here : pattern[c.pattern]? = some x) : c.pattern < pattern.size :=
    (Array.getElem?_eq_some_iff.mp here).1
  unfold advance at moved
  split at moved
  · rename_i star
    cases moved
    exact .inl ⟨within star, rfl, rfl, rfl⟩
  · split at moved
    · rename_i taken
      cases moved
      exact .inr (.inl ⟨taken.elim within within, rfl, rfl, rfl⟩)
    · split at moved
      · rename_i star absorbed last
        cases moved
        exact .inr (.inr ⟨star, absorbed, last, rfl, rfl, rfl⟩)
      · cases moved

theorem advance_inside {h : c.text < text.size} (inside : c.Inside pattern text)
    (moved : advance pattern text c h = some d) : d.Inside pattern text := by
  rcases advance_cases moved with ⟨within, forward, stays, last⟩ | ⟨within, forward, taken, same⟩ |
    ⟨star, absorbed, before, back, again, last⟩
  · refine ⟨forward ▸ within, stays ▸ inside.text_le, ?_⟩
    intro star absorbed own
    cases last.symm.trans own
    exact within
  · exact ⟨forward ▸ within, taken ▸ h, same ▸ inside.star_lt⟩
  · have within := inside.star_lt star absorbed before
    have short : absorbed ≤ c.text := c.absorbed_le _ before
    refine ⟨back ▸ within, ?_, ?_⟩
    · rw [again]
      exact Nat.lt_of_le_of_lt short h
    · intro star' absorbed' own
      cases last.symm.trans own
      exact within

-- Each iteration uses up some of what can still be done. Where a star is met, the text may have gone on
-- since the last one; where it is fallen back on, a retry is spent and the pattern may begin again.
theorem advance_effort {h : c.text < text.size} (inside : c.Inside pattern text)
    (moved : advance pattern text c h = some d) : d.effort pattern text < c.effort pattern text := by
  rcases advance_cases moved with ⟨within, forward, -, last⟩ | ⟨within, forward, -, same⟩ |
    ⟨star, absorbed, before, back, -, last⟩
  · have fewer : d.retries text.size ≤ c.retries text.size := by
      unfold Cursor.retries
      rw [last]
      cases own : c.backtrack with
      | none => exact Nat.sub_le_sub_left (Nat.zero_le _) _
      | some b => exact Nat.sub_le_sub_left (c.absorbed_le b own) _
    have less := Nat.mul_le_mul_right pattern.size fewer
    unfold Cursor.effort
    omega
  · have equal : d.retries text.size = c.retries text.size := by rw [Cursor.retries, same, Cursor.retries]
    unfold Cursor.effort
    rw [equal, forward]
    omega
  · have within := inside.star_lt star absorbed before
    have short : absorbed ≤ c.text := c.absorbed_le _ before
    have spent : c.retries text.size = d.retries text.size + 1 := by
      simp only [Cursor.retries, before, last, Option.map_some, Option.getD_some]
      omega
    unfold Cursor.effort
    rw [spent, Nat.add_mul, back]
    omega

theorem runFrom_iterations (inside : c.Inside pattern text) :
    (runFrom pattern text c).iterations ≤ c.effort pattern text := by
  fun_induction runFrom pattern text c with
  | case1 c h d moved r ih =>
    have later : r.iterations ≤ d.effort pattern text := ih (advance_inside inside moved)
    exact Nat.lt_of_le_of_lt later (advance_effort inside moved)
  | case2 => exact Nat.le_add_left ..
  | case3 => exact Nat.zero_le _

theorem Comes.inside (came : Comes pattern text n c) : c.Inside pattern text := by
  induction came with
  | start => exact start_inside
  | next h before moved ih => exact advance_inside ih moved

theorem Comes.iterations (came : Comes pattern text n c) :
    n + (runFrom pattern text c).iterations = (runFrom pattern text Glob.start).iterations := by
  induction came with
  | start => exact Nat.zero_add _
  | @next n c d h before moved ih =>
    have onward : (runFrom pattern text c).iterations = (runFrom pattern text d).iterations + 1 := by
      rw [runFrom, dif_pos h]
      split
      · rename_i other own
        cases moved.symm.trans own
        rfl
      · rename_i own
        cases moved.symm.trans own
    rw [← ih, onward]
    omega

theorem Comes.ends (came : Comes pattern text n c) :
    ∃ m d, Comes pattern text m d ∧ d.Last pattern text ∧
      n + (runFrom pattern text c).iterations ≤ m + 1 := by
  fun_induction runFrom pattern text c generalizing n with
  | case1 c h d moved r =>
    rename_i ih
    obtain ⟨m, last, comes, ends, bound⟩ := ih (came.next h moved)
    refine ⟨m, last, comes, ends, ?_⟩
    rwa [← Nat.add_assoc, Nat.add_right_comm]
  | case2 c h stopped => exact ⟨n, c, came, .inr ⟨h, stopped⟩, Nat.le_refl _⟩
  | case3 c beyond =>
    exact ⟨n, c, came, .inl (Nat.le_of_not_lt beyond), Nat.le_add_right _ _⟩

-- The loop comes to an end, however many stars it is led back to, and it takes no more iterations than
-- there are pairs of a place in the pattern and a place in the text. On the way it stays within both: the
-- text is read only where it has a character, and what is left of the pattern begins at most at its end.
theorem run_within (pattern text : String) :
    (run (body pattern) text.toList).iterations ≤ ((body pattern).length + 1) * (text.length + 1) ∧
      (∃ n c, Comes (body pattern).toArray text.toList.toArray n c ∧
        c.Last (body pattern).toArray text.toList.toArray ∧
        (run (body pattern) text.toList).iterations ≤ n + 1) ∧
      ∀ n c, Comes (body pattern).toArray text.toList.toArray n c →
        n ≤ (run (body pattern) text.toList).iterations ∧ c.pattern ≤ (body pattern).length ∧
          c.text ≤ text.length := by
  refine ⟨?_, ?_, ?_⟩
  · rw [← String.length_toList]
    exact Nat.le_trans (runFrom_iterations start_inside) start_effort
  · have begun : Comes (body pattern).toArray text.toList.toArray 0 Glob.start := .start
    obtain ⟨n, c, came, ends, bound⟩ := begun.ends
    rw [Nat.zero_add] at bound
    exact ⟨n, c, came, ends, bound⟩
  · intro n c came
    have inside := came.inside
    refine ⟨?_, inside.pattern_le, ?_⟩
    · rw [run, ← came.iterations]
      exact Nat.le_add_right _ _
    · rw [← String.length_toList]
      exact inside.text_le

-- The star takes up a letter only after what stands behind it has failed there, in the third of five
-- iterations.
theorem run_within_retried :
    (run (body "!*ab") "aab".toList).iterations = 5 ∧ 5 ≤ (3 + 1) * (3 + 1) ∧
      ∃ c, Comes (body "!*ab").toArray "aab".toList.toArray 3 c ∧ c.backtrack = some (0, 1) ∧
        3 ≤ (run (body "!*ab") "aab".toList).iterations ∧ c.pattern ≤ 3 ∧ c.text ≤ 3 := by
  obtain ⟨bound, -, stays⟩ := run_within "!*ab" "aab"
  have five : (run (body "!*ab") "aab".toList).iterations = 5 := by cbv
  have first : Comes (body "!*ab").toArray "aab".toList.toArray 1 _ := .next (by decide) .start rfl
  have second : Comes (body "!*ab").toArray "aab".toList.toArray 2 _ := .next (by decide) first rfl
  have third : Comes (body "!*ab").toArray "aab".toList.toArray 3 _ := .next (by decide) second rfl
  exact ⟨five, five ▸ bound, _, third, rfl, stays 3 _ third⟩

end TreeDigest.Glob
