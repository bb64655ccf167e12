import TreeDigest.Proofs.Text.Utf8
namespace TreeDigest.Utf8

variable {a b c d : UInt8} {x y z u : Nat}

theorem isContinuation_of_bounds (bounds : 0x80 ≤ b.toNat ∧ b.toNat ≤ 0xBF) : isContinuation b = true := by
  simpa [isContinuation, UInt8.le_iff_toNat_le] using bounds

theorem isSecond_of_bounds (bounds : 0x80 ≤ b.toNat ∧ b.toNat ≤ 0xBF)
    (overlong : (a.toNat = 0xE0 → 0xA0 ≤ b.toNat) ∧ (a.toNat = 0xF0 → 0x90 ≤ b.toNat))
    (beyond : (a.toNat = 0xED → b.toNat ≤ 0x9F) ∧ (a.toNat = 0xF4 → b.toNat ≤ 0x8F)) :
    isSecond a b = true := by
  simp only [isSecond, isContinuation, ← UInt8.toNat_inj, UInt8.le_iff_toNat_le, UInt8.reduceToNat,
    apply_ite (· = true), Bool.and_eq_true, decide_eq_true_eq]
  repeat' split
  all_goals omega

theorem next_two (first : a.toNat = z + 192) (second : b.toNat = u + 128) (lead : 2 ≤ z ∧ z < 32)
    (last : u < 64) (rest : Bytes) : next a (b :: rest) = (.char (Char.ofNat (64 * z + u)), rest) := by
  have width : width? a = some 2 := by
    simp only [width?, UInt8.lt_iff_toNat_lt, UInt8.le_iff_toNat_le, UInt8.reduceToNat, first,
      Bool.and_eq_true, decide_eq_true_eq]
    rw [if_neg (by omega), if_pos (by omega)]
  have follows : isSecond a b = true := by
    apply isSecond_of_bounds <;> omega
  have value : codePoint (a.toNat % 32) [b] = 64 * z + u := by
    simp only [codePoint, List.foldl_cons, List.foldl_nil]
    omega
  simp only [next, width, next2, follows, if_true, char, value]

theorem next_three (first : a.toNat = y + 224) (second : b.toNat = z + 128) (third : c.toNat = u + 128)
    (lead : y < 16) (middle : z < 64) (last : u < 64) (long : 32 ≤ 64 * y + z)
    (valid : (4096 * y + 64 * z + u).isValidChar) (rest : Bytes) :
    next a (b :: c :: rest) = (.char (Char.ofNat (4096 * y + 64 * z + u)), rest) := by
  have width : width? a = some 3 := by
    simp only [width?, UInt8.lt_iff_toNat_lt, UInt8.le_iff_toNat_le, UInt8.reduceToNat, first,
      Bool.and_eq_true, decide_eq_true_eq]
    rw [if_neg (by omega), if_neg (by omega), if_pos (by omega)]
  have follows : isSecond a b = true := by
    unfold Nat.isValidChar at valid
    apply isSecond_of_bounds <;> omega
  have ends : isContinuation c = true := isContinuation_of_bounds (by omega)
  have value : codePoint (a.toNat % 16) [b, c] = 4096 * y + 64 * z + u := by
    simp only [codePoint, List.foldl_cons, List.foldl_nil]
    omega
  simp only [next, width, next3, follows, ends, Bool.not_true, Bool.false_eq_true, if_false, char, value]

theorem next_four (first : a.toNat = x + 240) (second : b.toNat = y + 128) (third : c.toNat = z + 128)
    (fourth : d.toNat = u + 128) (lead : x < 5) (upper : y < 64) (middle : z < 64) (last : u < 64)
    (long : 16 ≤ 64 * x + y) (most : 262144 * x + 4096 * y + 64 * z + u < 0x110000) (rest : Bytes) :
    next a (b :: c :: d :: rest) =
      (.char (Char.ofNat (262144 * x + 4096 * y + 64 * z + u)), rest) := by
  have width : width? a = some 4 := by
    simp only [width?, UInt8.lt_iff_toNat_lt, UInt8.le_iff_toNat_le, UInt8.reduceToNat, first,
      Bool.and_eq_true, decide_eq_true_eq]
    rw [if_neg (by omega), if_neg (by omega), if_neg (by omega), if_pos (by omega)]
  have follows : isSecond a b = true := by
    apply isSecond_of_bounds <;> omega
  have goes : isContinuation c = true := isContinuation_of_bounds (by omega)
  have ends : isContinuation d = true := isContinuation_of_bounds (by omega)
  have value : codePoint (a.toNat % 8) [b, c, d] = 262144 * x + 4096 * y + 64 * z + u := by
    simp only [codePoint, List.foldl_cons, List.foldl_nil]
    omega
  simp only [next, width, next4, follows, goes, ends, Bool.not_true, Bool.false_eq_true, if_false, char,
    value]

theorem next_encodeChar (e : Char) (rest : Bytes) :
    ∃ a r, String.utf8EncodeChar e = a :: r ∧ next a (r ++ rest) = (.char e, rest) := by
  have most := toNat_lt e
  have valid : e.val.toNat.isValidChar := e.valid
  have byte {n : Nat} (small : n < 256) : (UInt8.ofNat n).toNat = n := by
    rw [UInt8.toNat_ofNat', Nat.mod_eq_of_lt small]
  have own : Char.ofNat e.val.toNat = e := Char.ofNat_toNat e
  fun_cases String.utf8EncodeChar e
  case case1 v small =>
    refine ⟨_, _, rfl, ?_⟩
    have narrow : UInt8.ofNat v < 0x80 := by
      rw [UInt8.lt_iff_toNat_lt, byte (by omega)]
      exact Nat.lt_succ_of_le small
    simp only [next, width?, narrow, if_true, byte (show v < 256 by omega), own, v, List.nil_append]
  case case2 v _ _ =>
    obtain ⟨value, _, _, _⟩ := digits v
    refine ⟨_, _, rfl, ?_⟩
    rw [List.singleton_append, next_two (z := v / 64 % 32) (u := v % 64) (byte (by omega)) (byte (by omega))
      (by omega) (by omega), show 64 * (v / 64 % 32) + v % 64 = e.val.toNat by omega, own]
  case case3 v _ _ _ =>
    obtain ⟨value, _, _, _⟩ := digits v
    refine ⟨_, _, rfl, ?_⟩
    have whole : 4096 * (v / 4096 % 16) + 64 * (v / 64 % 64) + v % 64 = e.val.toNat := by omega
    rw [List.cons_append, List.singleton_append, next_three (byte (by omega)) (byte (by omega))
      (byte (by omega)) (by omega) (by omega) (by omega) (by omega) (by rw [whole]; exact valid), whole, own]
  case case4 v _ _ _ =>
    obtain ⟨value, _, _, _⟩ := digits v
    refine ⟨_, _, rfl, ?_⟩
    have whole : 262144 * (v / 262144 % 8) + 4096 * (v / 4096 % 64) + 64 * (v / 64 % 64) + v % 64 =
        e.val.toNat := by omega
    rw [List.cons_append, List.cons_append, List.singleton_append, next_four (byte (by omega))
      (byte (by omega)) (byte (by omega)) (byte (by omega)) (by omega) (by omega) (by omega) (by omega)
      (by omega) (by omega), whole, own]

theorem chunks_encodeChars (cs : List Char) : chunks (encodeChars cs) = cs.map .char := by
  induction cs with
  | nil => simp [encodeChars, chunks]
  | cons e cs ih =>
    obtain ⟨a, r, split, read⟩ := next_encodeChar e (encodeChars cs)
    rw [encodeChars, List.flatMap_cons, split, List.cons_append, ← encodeChars, chunks, read]
    exact congrArg _ ih

theorem text?_encode (s : String) : text? (encode s) = some s := by
  rw [text?, chars?, encode, chunks_encodeChars, mapM_char?, Option.map_some, String.ofList_toList]

end TreeDigest.Utf8
