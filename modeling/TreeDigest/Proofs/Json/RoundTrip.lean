import Mathlib.Data.List.DropRight
import TreeDigest.Json.Basic
import TreeDigest.Json.Parser
namespace TreeDigest.Json

variable {c : Char} {cs rest : List Char} {fuel : Nat}

theorem hexValue?_hexDigit {n : Nat} (small : n < 16) : hexValue? (Text.hexDigit false n) = some n := by
  decide +revert

theorem unicode?_control (control : c.toNat < 32) (rest : List Char) :
    unicode? ('0' :: '0' :: (Text.hexByte false c.toNat.toUInt8 ++ rest)) = some (c, rest) := by
  have zero : hexValue? '0' = some 0 := rfl
  have own : c.toNat.toUInt8.toNat = c.toNat := by simp; omega
  have high : hexValue? (Text.hexDigit false (c.toNat / 16)) = some (c.toNat / 16) :=
    hexValue?_hexDigit (by omega)
  have low : hexValue? (Text.hexDigit false (c.toNat % 16)) = some (c.toNat % 16) :=
    hexValue?_hexDigit (by omega)
  have unit : unit? ('0' :: '0' :: (Text.hexByte false c.toNat.toUInt8 ++ rest)) =
      some (c.toNat, rest) := by
    simp [unit?, Text.hexByte, zero, own, high, low]
    omega
  have whole : (decide (c.toNat < 0xD800) || decide (0xE000 ≤ c.toNat)) = true := by
    simp only [Bool.or_eq_true, decide_eq_true_eq]
    omega
  rw [unicode?, unit]
  dsimp only [Option.bind_eq_bind, Option.bind]
  rw [if_pos whole, Char.ofNat_toNat]
  rfl

theorem escapeChar_cases (c : Char) :
    (escapeChar c = [c] ∧ c ≠ '"' ∧ c ≠ '\\' ∧ ¬ c.toNat < 32) ∨
      ∃ cs, escapeChar c = '\\' :: cs ∧ ∀ rest, escape? (cs ++ rest) = some (c, rest) := by
  unfold escapeChar
  split
  case h_8 quote back _ _ _ _ _ =>
    split
    · rename_i control
      exact .inr ⟨_, rfl, unicode?_control control⟩
    · rename_i visible
      exact .inl ⟨rfl, quote, back, visible⟩
  all_goals exact .inr ⟨_, rfl, fun _ => rfl⟩

theorem readString_escaped (read : escape? cs = some (c, rest)) :
    readString (fuel + 1) ('\\' :: cs) = (readString fuel rest).map fun r => (c :: r.1, r.2) := by
  simp only [readString, read, Option.bind_eq_bind, Option.bind_some]
  cases readString fuel rest <;> rfl

theorem readString_plain (quote : c ≠ '"') (back : c ≠ '\\') (visible : ¬ c.toNat < 32) :
    readString (fuel + 1) (c :: rest) = (readString fuel rest).map fun r => (c :: r.1, r.2) := by
  simp only [readString, visible, Option.bind_eq_bind]
  cases readString fuel rest <;> rfl

theorem readString_char (c : Char) (fuel : Nat) (rest : List Char) :
    readString (fuel + 1) (escapeChar c ++ rest) =
      (readString fuel rest).map fun r => (c :: r.1, r.2) := by
  rcases escapeChar_cases c with ⟨own, quote, back, visible⟩ | ⟨cs, own, read⟩
  · rw [own]
    exact readString_plain quote back visible
  · rw [own]
    exact readString_escaped (read rest)

theorem readString_text (s rest : List Char) (enough : s.length < fuel) :
    readString fuel (s.flatMap escapeChar ++ '"' :: rest) = some (s, rest) := by
  induction s generalizing fuel with
  | nil =>
    cases fuel with
    | zero => cases enough
    | succ fuel => rfl
  | cons c s ih =>
    cases fuel with
    | zero => cases enough
    | succ fuel =>
      rw [List.flatMap_cons, List.append_assoc, readString_char, ih (Nat.lt_of_succ_lt_succ enough)]
      rfl

theorem skipSpace_newline (depth : Nat) (cs : List Char) : skipSpace (newline depth ++ cs) = skipSpace cs := by
  have blank : ∀ c ∈ newline depth, isSpace c = true := by
    intro c member
    rcases List.mem_cons.mp member with rfl | member
    · rfl
    · rw [List.eq_of_mem_replicate member]
      rfl
  exact List.dropWhile_append_of_pos blank

theorem skipSpace_cons (solid : isSpace c = false) : skipSpace (c :: cs) = c :: cs :=
  List.dropWhile_cons_of_neg (by simp [solid])

theorem read_space (blank : isSpace c = true) : read fuel (c :: cs) = read fuel cs := by
  have same : skipSpace (c :: cs) = skipSpace cs := List.dropWhile_cons_of_pos blank
  cases fuel with
  | zero => rfl
  | succ fuel => rw [read, read, same]

theorem length_le_escaped (s : List Char) : s.length ≤ (s.flatMap escapeChar).length := by
  induction s with
  | nil => exact Nat.le_refl _
  | cons c s ih =>
    have own : 1 ≤ (escapeChar c).length := by
      rcases escapeChar_cases c with ⟨own, -⟩ | ⟨cs, own, -⟩ <;> simp [own]
    rw [List.flatMap_cons, List.length_append, List.length_cons]
    omega

theorem readString_string (s : String) (rest : List Char) :
    ∃ text, string s ++ rest = '"' :: text ∧
      readString (text.length + 1) text = some (s.toList, rest) := by
  refine ⟨s.toList.flatMap escapeChar ++ '"' :: rest, by simp [string], readString_text _ _ ?_⟩
  have long := length_le_escaped s.toList
  rw [List.length_append]
  omega

theorem read_string (fuel : Nat) (s : String) (rest : List Char) :
    read (fuel + 1) (string s ++ rest) = some (.text s, rest) := by
  obtain ⟨text, opens, reads⟩ := readString_string s rest
  rw [opens, read, skipSpace_cons rfl]
  simp [reads]

theorem readMembers_skipSpace : readMembers fuel (skipSpace cs) = readMembers fuel cs := by
  have again : skipSpace (skipSpace cs) = skipSpace cs := List.dropWhile_idempotent isSpace cs
  cases fuel with
  | zero => rfl
  | succ fuel => rw [readMembers, readMembers, again]

theorem printMembers_opens (depth : Nat) (m : String × Json) (ms : List (String × Json))
    (rest : List Char) : ∃ text, skipSpace (printMembers depth (m :: ms) ++ rest) = '"' :: text := by
  cases ms with
  | nil =>
    rw [printMembers, List.append_assoc, List.append_assoc, List.append_assoc, skipSpace_newline]
    exact ⟨_, skipSpace_cons rfl⟩
  | cons next ms =>
    simp only [printMembers, List.append_assoc, skipSpace_newline]
    exact ⟨_, skipSpace_cons rfl⟩

theorem read_object {text : List Char} (opens : skipSpace cs = '"' :: text) :
    read (fuel + 1) ('\x7b' :: cs) = (readMembers fuel cs).map fun r => (.object r.1, r.2) := by
  rw [read, skipSpace_cons rfl, ← readMembers_skipSpace]
  simp only [opens]
  rfl

theorem readMembers_member {depth : Nat} {key : String} {value : Json} {tail : List Char}
    (reads : read fuel (print depth value ++ tail) = some (value, tail)) :
    (∀ after, skipSpace tail = ',' :: after →
      readMembers (fuel + 1) (newline depth ++ string key ++ [':', ' '] ++ print depth value ++ tail) =
        (readMembers fuel after).map fun r => ((key, value) :: r.1, r.2)) ∧
    ∀ after, skipSpace tail = '\x7d' :: after →
      readMembers (fuel + 1) (newline depth ++ string key ++ [':', ' '] ++ print depth value ++ tail) =
        some ([(key, value)], after) := by
  obtain ⟨text, opens, own⟩ := readString_string key (':' :: ' ' :: (print depth value ++ tail))
  have whole : newline depth ++ string key ++ [':', ' '] ++ print depth value ++ tail =
      newline depth ++ '"' :: text := by
    rw [← opens]
    simp
  have colon : isSpace ':' = false := rfl
  have blank : isSpace ' ' = true := rfl
  rw [whole, readMembers, skipSpace_newline, skipSpace_cons rfl]
  simp only [own, skipSpace_cons colon, read_space blank, reads, Option.bind_eq_bind, Option.bind_some,
    String.ofList_toList]
  constructor
  · intro after next
    rw [next]
    change (readMembers fuel after).bind _ = _
    cases readMembers fuel after <;> rfl
  · intro after next
    rw [next]
    rfl

mutual

theorem read_print (depth fuel : Nat) (rest : List Char) : ∀ j : Json,
    (print depth j).length ≤ fuel → read fuel (print depth j ++ rest) = some (j, rest)
  | .text s, enough => by
    cases fuel with
    | zero => simp [print, string] at enough
    | succ fuel => exact read_string fuel s rest
  | .object [], enough => by
    cases fuel with
    | zero => simp [print] at enough
    | succ fuel => rfl
  | .object (m :: ms), enough => by
    cases fuel with
    | zero => simp [print] at enough
    | succ fuel =>
      have members := readMembers_print (depth + 1) depth fuel rest m ms (by
        simp [print, newline] at enough
        omega)
      have split : print depth (.object (m :: ms)) ++ rest =
          '\x7b' :: (printMembers (depth + 1) (m :: ms) ++ (newline depth ++ '\x7d' :: rest)) := by
        simp [print]
      obtain ⟨text, opens⟩ := printMembers_opens (depth + 1) m ms (newline depth ++ '\x7d' :: rest)
      rw [split, read_object opens, members]
      rfl

theorem readMembers_print (depth outer fuel : Nat) (rest : List Char) :
    ∀ (m : String × Json) (ms : List (String × Json)),
    (printMembers depth (m :: ms)).length < fuel →
    readMembers fuel (printMembers depth (m :: ms) ++ (newline outer ++ '\x7d' :: rest)) =
      some (m :: ms, rest)
  | (key, value), [], enough => by
    cases fuel with
    | zero => cases enough
    | succ fuel =>
      have own := read_print depth fuel (newline outer ++ '\x7d' :: rest) value (by
        simp [printMembers] at enough
        omega)
      rw [printMembers, (readMembers_member own).2 rest (skipSpace_newline ..)]
  | (key, value), m :: ms, enough => by
    cases fuel with
    | zero => cases enough
    | succ fuel =>
      simp [printMembers] at enough
      have own := read_print depth fuel
        (',' :: (printMembers depth (m :: ms) ++ (newline outer ++ '\x7d' :: rest))) value (by omega)
      have later := readMembers_print depth outer fuel rest m ms (by omega)
      have split : printMembers depth ((key, value) :: m :: ms) ++ (newline outer ++ '\x7d' :: rest) =
          newline depth ++ string key ++ [':', ' '] ++ print depth value ++
            (',' :: (printMembers depth (m :: ms) ++ (newline outer ++ '\x7d' :: rest))) := by
        simp [printMembers]
      rw [split, (readMembers_member own).1 _ (skipSpace_cons rfl), later]
      rfl

end

-- Whatever is written as JSON reads back as it was.
theorem parse_pretty (j : Json) : parse j.pretty = some j := by
  have whole := read_print 0 (j.pretty.length + 1) [] j (by simp [pretty])
  rw [List.append_nil] at whole
  rw [parse, pretty, String.toList_ofList, ← pretty, whole]
  rfl

end TreeDigest.Json
