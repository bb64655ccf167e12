import TreeDigest.Proofs.Toml.Ordered
import TreeDigest.Toml.Parser
namespace TreeDigest.Toml

variable {v : Value}

theorem scalar?_written {token : List Char} (read : scalar? token = some v) : v.Written := by
  unfold scalar? at read
  split at read
  · cases read
    exact ⟨.boolean, trivial⟩
  · split at read
    · cases read
      exact ⟨.boolean, trivial⟩
    · split at read
      · cases read
        exact ⟨.integer, trivial⟩
      · cases read
        exact ⟨.real, trivial⟩
      · split at read <;> cases read
        exact ⟨.moment, trivial⟩

section Parser

structure Reads (fuel : Nat) : Prop where
  value {depth : Nat} {cs rest : List Char} {v : Value} : value fuel depth cs = some (v, rest) → v.Written
  items {depth : Nat} {cs rest : List Char} {vs : List Value} : items fuel depth cs = some (vs, rest) →
    ∀ v ∈ vs, v.Written
  pairs {depth : Nat} {cs rest : List Char} {ps : List (List String × Value)} :
    pairs fuel depth cs = some (ps, rest) → ∀ p ∈ ps, p.2.Written

variable {fuel depth : Nat} {cs rest : List Char}

theorem string_written {r : Option (String × List Char)}
    (read : (r.map fun r => (Value.string r.1, r.2)) = some (v, rest)) : v.Written := by
  obtain ⟨r, -, same⟩ := Option.map_eq_some_iff.mp read
  cases same
  exact ⟨.string, trivial⟩

theorem Reads.value_succ (reads : Reads fuel) (read : Toml.value (fuel + 1) depth cs = some (v, rest)) :
    v.Written := by
  unfold Toml.value at read
  split at read
  · exact string_written read
  · exact string_written read
  · exact string_written read
  · exact string_written read
  · split at read
    · cases read
    · obtain ⟨⟨vs, more⟩, found, same⟩ := Option.map_eq_some_iff.mp read
      cases same
      exact ⟨.array fun v own => (reads.items found v own).ordered, rfl⟩
  · split at read
    · cases read
    · obtain ⟨⟨ps, more⟩, found, read⟩ := Option.bind_eq_some_iff.mp read
      obtain ⟨t, built, same⟩ := Option.bind_eq_some_iff.mp read
      cases same
      exact buildInline_written (reads.pairs found) built
  · obtain ⟨t, found, same⟩ := Option.map_eq_some_iff.mp read
    cases same
    exact scalar?_written found

theorem Reads.items_succ (reads : Reads fuel) {vs : List Value}
    (read : Toml.items (fuel + 1) depth cs = some (vs, rest)) : ∀ v ∈ vs, v.Written := by
  unfold Toml.items at read
  obtain ⟨cs, -, read⟩ := Option.bind_eq_some_iff.mp read
  split at read
  · cases read
    nofun
  · obtain ⟨⟨v, more⟩, found, read⟩ := Option.bind_eq_some_iff.mp read
    obtain ⟨next, -, read⟩ := Option.bind_eq_some_iff.mp read
    split at read
    · obtain ⟨⟨vs, last⟩, later, same⟩ := Option.bind_eq_some_iff.mp read
      cases same
      exact List.forall_mem_cons.mpr ⟨reads.value found, reads.items later⟩
    · cases read
      exact List.forall_mem_singleton.mpr (reads.value found)
    · cases read

theorem Reads.pairs_succ (reads : Reads fuel) {ps : List (List String × Value)}
    (read : Toml.pairs (fuel + 1) depth cs = some (ps, rest)) : ∀ p ∈ ps, p.2.Written := by
  unfold Toml.pairs at read
  obtain ⟨cs, -, read⟩ := Option.bind_eq_some_iff.mp read
  split at read
  · cases read
    nofun
  · obtain ⟨⟨path, more⟩, -, read⟩ := Option.bind_eq_some_iff.mp read
    obtain ⟨_, -, read⟩ := Option.bind_eq_some_iff.mp read
    obtain ⟨_, -, read⟩ := Option.bind_eq_some_iff.mp read
    obtain ⟨_, -, read⟩ := Option.bind_eq_some_iff.mp read
    obtain ⟨⟨v, more⟩, found, read⟩ := Option.bind_eq_some_iff.mp read
    obtain ⟨next, -, read⟩ := Option.bind_eq_some_iff.mp read
    split at read
    · obtain ⟨⟨ps, last⟩, later, same⟩ := Option.bind_eq_some_iff.mp read
      cases same
      exact List.forall_mem_cons.mpr ⟨reads.value found, reads.pairs later⟩
    · cases read
      exact List.forall_mem_singleton.mpr (reads.value found)
    · cases read

theorem reads (fuel : Nat) : Reads fuel := by
  induction fuel with
  | zero => exact ⟨nofun, nofun, nofun⟩
  | succ fuel ih => exact ⟨ih.value_succ, ih.items_succ, ih.pairs_succ⟩

theorem pair_written {s : Statement} (read : pair cs = some (s, rest)) : s.Written := by
  obtain ⟨⟨path, more⟩, -, read⟩ := Option.bind_eq_some_iff.mp read
  obtain ⟨_, -, read⟩ := Option.bind_eq_some_iff.mp read
  obtain ⟨⟨v, more⟩, found, same⟩ := Option.bind_eq_some_iff.mp read
  cases same
  exact (reads _).value found

theorem statement_written {s : Statement} (read : statement cs = some (s, rest)) : s.Written := by
  unfold statement at read
  split at read
  · obtain ⟨⟨path, more⟩, -, read⟩ := Option.bind_eq_some_iff.mp read
    obtain ⟨_, -, read⟩ := Option.bind_eq_some_iff.mp read
    obtain ⟨_, -, same⟩ := Option.bind_eq_some_iff.mp read
    cases same
    trivial
  · obtain ⟨⟨path, more⟩, -, read⟩ := Option.bind_eq_some_iff.mp read
    obtain ⟨_, -, same⟩ := Option.bind_eq_some_iff.mp read
    cases same
    trivial
  · exact pair_written read

theorem statements_written {lines : List Statement} (read : statements fuel cs = some lines) :
    ∀ s ∈ lines, s.Written := by
  induction fuel generalizing cs lines with
  | zero => cases read
  | succ fuel ih =>
    unfold statements at read
    obtain ⟨cs, -, read⟩ := Option.bind_eq_some_iff.mp read
    split at read
    · cases read
      nofun
    · obtain ⟨⟨s, more⟩, found, read⟩ := Option.bind_eq_some_iff.mp read
      obtain ⟨next, -, read⟩ := Option.bind_eq_some_iff.mp read
      obtain ⟨later, others, same⟩ := Option.bind_eq_some_iff.mp read
      cases same
      exact List.forall_mem_cons.mpr ⟨statement_written found, ih others⟩

end Parser

def lines (text : String) : Option (List Statement) :=
  let cs := skipMark text.toList
  statements (cs.length + 1) cs

variable {text other : String}

theorem parse_eq : parse text = (lines text).bind build := rfl

theorem parse_ordered (parsed : parse text = some v) : v.Ordered := by
  obtain ⟨lines, read, built⟩ := Option.bind_eq_some_iff.mp parsed
  exact build_ordered (statements_written read) built

-- Texts that differ in the order of the pairs under one header say the same.
theorem parse_reordered {front back : List Statement} {pairs others : List (List String × Value)}
    (own : lines text = some (front ++ pairs.map .ofPair ++ back))
    (also : lines other = some (front ++ others.map .ofPair ++ back)) (perm : pairs.Perm others) :
    parse other = parse text := by
  have written := statements_written own
  have closed (p : List String × Value) (member : p ∈ pairs) : p.2.Closed := by
    refine (written (.ofPair p) ?_).closed
    simp [List.mem_map_of_mem member]
  rw [parse_eq, parse_eq, own, also]
  exact (build_reordered closed perm front back).symm

def opening (n : Nat) (cs : List Char) : List Char := List.replicate n '[' ++ cs

theorem opening_succ (n : Nat) (cs : List Char) : opening (n + 1) cs = '[' :: opening n cs := rfl

-- No value is read that opens more brackets than the depth allows, whatever follows them.
theorem value_opening (fuel depth : Nat) (cs : List Char) :
    value fuel depth (opening (depth + 1) cs) = none := by
  induction depth generalizing fuel with
  | zero => cases fuel <;> simp [value, opening_succ]
  | succ depth ih =>
    have inner (fuel : Nat) : items fuel depth (opening (depth + 1) cs) = none := by
      cases fuel with
      | zero => rw [items]
      | succ fuel =>
        have stuck := ih fuel
        rw [opening_succ] at stuck
        simp [items, opening_succ, skipTrivia, isBlank, stuck]
    cases fuel with
    | zero => rw [value]
    | succ fuel =>
      rw [opening_succ, value, if_neg (Nat.succ_ne_zero depth), Nat.add_sub_cancel, inner, Option.map_none]

theorem pair_opening (cs : List Char) : pair ('x' :: '=' :: opening (deepest + 1) cs) = none := by
  have stuck (fuel : Nat) := value_opening fuel deepest cs
  have short : ¬ deepest < 1 := by decide
  simp only [opening_succ] at stuck ⊢
  simp [pair, key, keyFrom, simpleKey, skipBlanks, isBlank, isBareKey, expect, stuck, short]

theorem parse_opening (cs : List Char) :
    parse (String.ofList ('x' :: '=' :: opening (deepest + 1) cs)) = none := by
  have fails := pair_opening cs
  simp [parse, skipMark, statements, skipTrivia, isBlank, statement, fails]

end TreeDigest.Toml
