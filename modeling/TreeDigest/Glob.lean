namespace TreeDigest.Glob

def body (pattern : String) : List Char :=
  match pattern.toList with
  | '!' :: rest => rest
  | chars => chars

-- What a pattern means. A star stands for any run of characters, the separator included.
inductive Matches : List Char → List Char → Prop where
  | done : Matches [] []
  | star (absorbed : List Char) {p t : List Char} : Matches p t → Matches ('*' :: p) (absorbed ++ t)
  | one (c : Char) {p t : List Char} : Matches p t → Matches ('?' :: p) (c :: t)
  | same {c : Char} {p t : List Char} : c ≠ '*' → c ≠ '?' → Matches p t → Matches (c :: p) (c :: t)

-- Where a match stands: the next pattern character, the next text character, and the last star with
-- the text position up to which it has absorbed.
structure Cursor where
  pattern : Nat
  text : Nat
  backtrack : Option (Nat × Nat)
  absorbed_le : ∀ b ∈ backtrack, b.2 ≤ text

def start : Cursor := ⟨0, 0, none, by simp⟩

-- One iteration. Only the last star is remembered: on a mismatch it absorbs one character more.
def advance (pattern text : Array Char) (c : Cursor) (h : c.text < text.size) : Option Cursor :=
  if pattern[c.pattern]? = some '*' then
    some ⟨c.pattern + 1, c.text, some (c.pattern, c.text), by simp⟩
  else if pattern[c.pattern]? = some '?' ∨ pattern[c.pattern]? = some text[c.text] then
    some ⟨c.pattern + 1, c.text + 1, c.backtrack,
      fun b hb => Nat.le_succ_of_le (c.absorbed_le b hb)⟩
  else
    match c.backtrack with
    | some (star, absorbed) => some ⟨star + 1, absorbed + 1, some (star, absorbed + 1), by simp⟩
    | none => none

def Cursor.room (size : Nat) (c : Cursor) : Nat :=
  match c.backtrack with
  | some (_, absorbed) => size - absorbed
  | none => size + 1

theorem advance_decreases {pattern text : Array Char} {c d : Cursor} {h : c.text < text.size}
    (moved : advance pattern text c h = some d) :
    d.room text.size < c.room text.size ∨
      d.room text.size ≤ c.room text.size ∧ pattern.size - d.pattern < pattern.size - c.pattern := by
  have inside {x : Char} (e : pattern[c.pattern]? = some x) : c.pattern < pattern.size := by
    by_cases lt : c.pattern < pattern.size
    · exact lt
    · rw [Array.getElem?_eq_none (Nat.le_of_not_lt lt)] at e; cases e
  unfold advance at moved
  split at moved
  · next star =>
    cases Option.some.inj moved
    right
    refine ⟨?_, by have := inside star; simp only; omega⟩
    cases b : c.backtrack with
    | none => simp [Cursor.room, b]; omega
    | some p => have := c.absorbed_le p (by simp [b]); simp [Cursor.room, b]; omega
  · split at moved
    · next same =>
      cases Option.some.inj moved
      right
      refine ⟨by simp [Cursor.room], ?_⟩
      have := same.elim inside inside
      simp only; omega
    · split at moved
      · next star absorbed b =>
        cases Option.some.inj moved
        left
        have := c.absorbed_le (star, absorbed) (by simp [b])
        simp [Cursor.room, b]
        simp at this
        omega
      · cases moved

structure Run where
  matched : Bool
  iterations : Nat

def runFrom (pattern text : Array Char) (c : Cursor) : Run :=
  if h : c.text < text.size then
    match moved : advance pattern text c h with
    | some d => let r := runFrom pattern text d; ⟨r.matched, r.iterations + 1⟩
    | none => ⟨false, 1⟩
  else ⟨(pattern.toList.drop c.pattern).all (· == '*'), 0⟩
termination_by (c.room text.size, pattern.size - c.pattern)
decreasing_by
  rcases advance_decreases moved with lt | ⟨le, lt⟩
  · exact Prod.Lex.left _ _ lt
  · rcases Nat.lt_or_eq_of_le le with lt' | eq
    · exact Prod.Lex.left _ _ lt'
    · rw [eq]; exact Prod.Lex.right _ lt

def run (pattern text : List Char) : Run := runFrom pattern.toArray text.toArray start

end TreeDigest.Glob

namespace TreeDigest

def globMatch (pattern text : String) : Bool := (Glob.run (Glob.body pattern) text.toList).matched

end TreeDigest
