import TreeDigest.Proofs.Path.Order
namespace TreeDigest.Utf8
open TreeDigest.Path (compareBytes compareLists)

variable {a b : UInt8} {r s bs : Bytes} {c d : Char} {cs ds : List Char}

structure Digits (n x y z u : Nat) : Prop where
  value : n = 262144 * x + 4096 * y + 64 * z + u
  second : y < 64
  third : z < 64
  last : u < 64

theorem digits (n : Nat) : Digits n (n / 262144) (n / 4096 % 64) (n / 64 % 64) (n % 64) where
  value := by
    have last := Nat.div_add_mod n 64
    have third := Nat.div_add_mod (n / 64) 64
    have second := Nat.div_add_mod (n / 4096) 64
    rw [Nat.div_div_eq_div_mul] at third second
    omega
  second := Nat.mod_lt _ (by decide)
  third := Nat.mod_lt _ (by decide)
  last := Nat.mod_lt _ (by decide)

theorem Digits.unique {n x y z u : Nat} (own : Digits n x y z u) :
    n / 262144 = x ∧ n / 4096 % 64 = y ∧ n / 64 % 64 = z ∧ n % 64 = u := by
  obtain ⟨value, second, third, last⟩ := own
  refine ⟨?_, ?_, ?_, ?_⟩ <;> omega

theorem compareBytes_cons : compareBytes (a :: r) (b :: s) = .lt ↔
    a.toNat < b.toNat ∨ a.toNat = b.toNat ∧ compareBytes r s = .lt := by
  have first : compare a b = .lt ↔ a.toNat < b.toNat := by
    rw [Std.compare_eq_lt, UInt8.lt_iff_toNat_lt]
  have same : compare a b = .eq ↔ a.toNat = b.toNat := by
    rw [Std.compare_eq_iff_eq, UInt8.toNat_inj]
  rw [← first, ← same]
  change (compare a b).then (compareBytes r s) = .lt ↔ _
  cases compare a b <;> simp

theorem toNat_lt (c : Char) : c.val.toNat < 0x110000 := by
  rcases c.valid with low | ⟨-, high⟩
  · exact Nat.lt_trans low (by decide)
  · exact high

theorem encodeChar_lt (before : c < d) (r s : Bytes) :
    compareBytes (String.utf8EncodeChar c ++ r) (String.utf8EncodeChar d ++ s) = .lt := by
  have before : c.val.toNat < d.val.toNat := before
  have low := toNat_lt c
  have high := toNat_lt d
  fun_cases String.utf8EncodeChar c <;> fun_cases String.utf8EncodeChar d <;>
    simp only [List.cons_append, List.nil_append, compareBytes_cons, UInt8.toNat_ofNat']
  case case4.case4 v _ _ _ w _ _ _ =>
    obtain ⟨own, _, _, _⟩ := digits v
    obtain ⟨other, _, _, _⟩ := digits w
    generalize v / 262144 = x, v / 4096 % 64 = y, v / 64 % 64 = z, v % 64 = u at *
    generalize w / 262144 = x', w / 4096 % 64 = y', w / 64 % 64 = z', w % 64 = u' at *
    simp (disch := omega) only [Nat.mod_eq_of_lt]
    omega
  all_goals omega

theorem encodeChars_lt (before : cs < ds) : compareBytes (encodeChars cs) (encodeChars ds) = .lt := by
  induction cs generalizing ds with
  | nil =>
    cases ds with
    | nil => exact absurd before (List.lt_irrefl _)
    | cons d ds =>
      obtain ⟨b, s, own⟩ := List.exists_cons_of_ne_nil (String.utf8EncodeChar_ne_nil (c := d))
      simp [encodeChars, own, compareBytes, compareLists]
  | cons c cs ih =>
    cases ds with
    | nil => exact absurd before (List.not_lt_nil _)
    | cons d ds =>
      rw [encodeChars, encodeChars, List.flatMap_cons, List.flatMap_cons]
      rcases List.cons_lt_cons_iff.mp before with first | ⟨rfl, later⟩
      · exact encodeChar_lt first _ _
      · exact (Path.compareLists_append _).trans (ih later)

theorem encode_lt {s t : String} (before : compare s t = .lt) : compareBytes (encode s) (encode t) = .lt :=
  encodeChars_lt (String.lt_iff.mp (compareOfLessAndEq_eq_lt.mp before))

-- The bytes that a chunk was read from. A character is read from its own encoding, and what is no part
-- of any character has none of the bytes that stand for themselves.
def Chunk.From (taken : Bytes) : Chunk → Prop
  | .char c => String.utf8EncodeChar c = taken
  | .invalid bytes => bytes = taken ∧ ∀ b ∈ taken, 0x80 ≤ b

theorem ofNat_val {n : Nat} (valid : n.isValidChar) : (Char.ofNat n).val.toNat = n := by
  rw [Char.ofNat, dif_pos valid]
  rfl

section Encodings
variable {n x y z u : Nat} (own : Digits n x y z u)
include own

theorem Digits.two (none : x = 0 ∧ y = 0) (lead : 2 ≤ z ∧ z < 32) :
    String.utf8EncodeChar (Char.ofNat n) = [UInt8.ofNat (z + 192), UInt8.ofNat (u + 128)] := by
  obtain ⟨-, -, third, last⟩ := own.unique
  obtain ⟨value, -, -, _⟩ := own
  unfold String.utf8EncodeChar
  simp only [ofNat_val (.inl (by omega) : n.isValidChar)]
  rw [if_neg (by omega), if_pos (by omega), last, show n / 64 % 32 = z by omega]

theorem Digits.three (none : x = 0) (lead : y < 16) (long : 32 ≤ 64 * y + z)
    (valid : n.isValidChar) : String.utf8EncodeChar (Char.ofNat n) =
      [UInt8.ofNat (y + 224), UInt8.ofNat (z + 128), UInt8.ofNat (u + 128)] := by
  obtain ⟨-, second, third, last⟩ := own.unique
  obtain ⟨value, -, -, _⟩ := own
  unfold String.utf8EncodeChar
  simp only [ofNat_val valid]
  rw [if_neg (by omega), if_neg (by omega), if_pos (by omega), last, third,
    show n / 4096 % 16 = y by omega]

theorem Digits.four (lead : x < 5) (long : 16 ≤ 64 * x + y) (valid : n.isValidChar) :
    String.utf8EncodeChar (Char.ofNat n) = [UInt8.ofNat (x + 240), UInt8.ofNat (y + 128),
      UInt8.ofNat (z + 128), UInt8.ofNat (u + 128)] := by
  obtain ⟨first, second, third, last⟩ := own.unique
  obtain ⟨value, -, -, _⟩ := own
  unfold String.utf8EncodeChar
  simp only [ofNat_val valid]
  rw [if_neg (by omega), if_neg (by omega), if_neg (by omega), last, third, second,
    first, Nat.mod_eq_of_lt (by omega)]

end Encodings

-- What a second byte may be after this first one. The exceptions keep out what has a shorter encoding
-- and what is no character.
theorem isSecond_bounds (second : isSecond a b = true) :
    0x80 ≤ b.toNat ∧ b.toNat ≤ 0xBF ∧ (a.toNat = 0xE0 → 0xA0 ≤ b.toNat) ∧
      (a.toNat = 0xED → b.toNat ≤ 0x9F) ∧ (a.toNat = 0xF0 → 0x90 ≤ b.toNat) ∧
      (a.toNat = 0xF4 → b.toNat ≤ 0x8F) := by
  simp only [isSecond, isContinuation, ← UInt8.toNat_inj, UInt8.le_iff_toNat_le, UInt8.reduceToNat,
    apply_ite (· = true), Bool.and_eq_true, decide_eq_true_eq] at second
  repeat' split at second
  all_goals omega

theorem isContinuation_bounds (follows : isContinuation b = true) :
    0x80 ≤ b.toNat ∧ b.toNat ≤ 0xBF := by
  simpa [isContinuation, UInt8.le_iff_toNat_le] using follows

theorem follow_eq (bounds : 0x80 ≤ b.toNat ∧ b.toNat ≤ 0xBF) : UInt8.ofNat (b.toNat % 64 + 128) = b := by
  rw [show b.toNat % 64 + 128 = b.toNat by omega, UInt8.ofNat_toNat]

theorem high_of_le (high : 0x80 ≤ b.toNat) : 0x80 ≤ b := UInt8.le_iff_toNat_le.mpr high

def Reads (a : UInt8) (r : Bytes) (read : Chunk × Bytes) : Prop :=
  ∃ taken, a :: r = taken ++ read.2 ∧ read.1.From taken

theorem reads_one (high : 0x80 ≤ a) : Reads a r (.invalid [a], r) :=
  ⟨[a], rfl, rfl, List.forall_mem_singleton.mpr high⟩

theorem reads_two (high : 0x80 ≤ a) (second : 0x80 ≤ b.toNat) : Reads a (b :: r) (.invalid [a, b], r) :=
  ⟨[a, b], rfl, rfl, List.forall_mem_cons.mpr ⟨high, List.forall_mem_singleton.mpr (high_of_le second)⟩⟩

theorem reads_three {c : UInt8} (high : 0x80 ≤ a) (second : 0x80 ≤ b.toNat) (third : 0x80 ≤ c.toNat) :
    Reads a (b :: c :: r) (.invalid [a, b, c], r) :=
  ⟨[a, b, c], rfl, rfl, List.forall_mem_cons.mpr ⟨high, List.forall_mem_cons.mpr
    ⟨high_of_le second, List.forall_mem_singleton.mpr (high_of_le third)⟩⟩⟩

theorem next2_reads (lead : 0xC2 ≤ a.toNat ∧ a.toNat ≤ 0xDF) (r : Bytes) : Reads a r (next2 a r) := by
  have high : 0x80 ≤ a := high_of_le (by omega)
  cases r with
  | nil => exact reads_one high
  | cons b r =>
    rw [next2]
    split
    · rename_i second
      obtain ⟨low, most, -⟩ := isSecond_bounds second
      have value : codePoint (a.toNat % 32) [b] = 64 * (a.toNat % 32) + b.toNat % 64 := by
        simp only [codePoint, List.foldl_cons, List.foldl_nil]
        omega
      have own : Digits (codePoint (a.toNat % 32) [b]) 0 0 (a.toNat % 32) (b.toNat % 64) :=
        ⟨by omega, by omega, by omega, by omega⟩
      have read := own.two ⟨rfl, rfl⟩ (by omega)
      rw [show a.toNat % 32 + 192 = a.toNat by omega, UInt8.ofNat_toNat, follow_eq ⟨low, most⟩] at read
      exact ⟨[a, b], rfl, read⟩
    · exact reads_one high

theorem next3_reads (lead : 0xE0 ≤ a.toNat ∧ a.toNat ≤ 0xEF) (r : Bytes) : Reads a r (next3 a r) := by
  have high : 0x80 ≤ a := high_of_le (by omega)
  match r with
  | [] => exact reads_one high
  | [b] =>
    rw [next3]
    split
    · rename_i second
      exact reads_two high (isSecond_bounds second).1
    · exact reads_one high
  | b :: c :: r =>
    rw [next3]
    split
    · exact reads_one high
    · rename_i second
      obtain ⟨low, most, least, last, -⟩ := isSecond_bounds (by simpa using second)
      split
      · exact reads_two high low
      · rename_i third
        have bounds := isContinuation_bounds (b := c) (by simpa using third)
        have value : codePoint (a.toNat % 16) [b, c] =
            4096 * (a.toNat % 16) + 64 * (b.toNat % 64) + c.toNat % 64 := by
          simp only [codePoint, List.foldl_cons, List.foldl_nil]
          omega
        have own : Digits (codePoint (a.toNat % 16) [b, c]) 0 (a.toNat % 16) (b.toNat % 64)
            (c.toNat % 64) := ⟨by omega, by omega, by omega, by omega⟩
        have read := own.three rfl (by omega) (by omega) (by
          unfold Nat.isValidChar
          omega)
        rw [show a.toNat % 16 + 224 = a.toNat by omega, UInt8.ofNat_toNat, follow_eq ⟨low, most⟩,
          follow_eq bounds] at read
        exact ⟨[a, b, c], rfl, read⟩

theorem next4_reads (lead : 0xF0 ≤ a.toNat ∧ a.toNat ≤ 0xF4) (r : Bytes) : Reads a r (next4 a r) := by
  have high : 0x80 ≤ a := high_of_le (by omega)
  match r with
  | [] => exact reads_one high
  | [b] =>
    rw [next4]
    split
    · rename_i second
      exact reads_two high (isSecond_bounds second).1
    · exact reads_one high
  | [b, c] =>
    rw [next4]
    split
    · exact reads_one high
    · rename_i second
      have low := (isSecond_bounds (a := a) (b := b) (by simpa using second)).1
      split
      · exact reads_two high low
      · rename_i third
        have bounds := isContinuation_bounds (b := c) (by simpa using third)
        exact reads_three high low bounds.1
  | b :: c :: d :: r =>
    rw [next4]
    split
    · exact reads_one high
    · rename_i second
      obtain ⟨low, most, -, -, least, last⟩ := isSecond_bounds (a := a) (b := b) (by simpa using second)
      split
      · exact reads_two high low
      · rename_i third
        have bounds := isContinuation_bounds (b := c) (by simpa using third)
        split
        · exact reads_three high low bounds.1
        · rename_i fourth
          have also := isContinuation_bounds (b := d) (by simpa using fourth)
          have value : codePoint (a.toNat % 8) [b, c, d] =
              262144 * (a.toNat % 8) + 4096 * (b.toNat % 64) + 64 * (c.toNat % 64) + d.toNat % 64 := by
            simp only [codePoint, List.foldl_cons, List.foldl_nil]
            omega
          have own : Digits (codePoint (a.toNat % 8) [b, c, d]) (a.toNat % 8) (b.toNat % 64)
              (c.toNat % 64) (d.toNat % 64) := ⟨value, by omega, by omega, by omega⟩
          have read := own.four (by omega) (by omega) (by
            unfold Nat.isValidChar
            omega)
          rw [show a.toNat % 8 + 240 = a.toNat by omega, UInt8.ofNat_toNat, follow_eq ⟨low, most⟩,
            follow_eq bounds, follow_eq also] at read
          exact ⟨[a, b, c, d], rfl, read⟩

theorem encodeChar_ascii (small : c.toNat < 0x80) :
    String.utf8EncodeChar c = [UInt8.ofNat c.toNat] := by
  have own : c.val.toNat ≤ 127 := Nat.le_of_lt_succ small
  unfold String.utf8EncodeChar
  exact if_pos own

theorem encodeChar_high (large : 0x80 ≤ c.toNat) : ∀ b ∈ String.utf8EncodeChar c, 0x80 ≤ b := by
  have own : 127 < c.val.toNat := large
  have high {n : Nat} (bounds : 128 ≤ n ∧ n < 256) : 0x80 ≤ UInt8.ofNat n := by
    apply high_of_le
    rw [UInt8.toNat_ofNat', Nat.mod_eq_of_lt bounds.2]
    exact bounds.1
  fun_cases String.utf8EncodeChar c
  case case1 => omega
  all_goals simp only [List.forall_mem_cons, List.not_mem_nil, false_implies, implies_true, and_true]
  case case2 => exact ⟨high (by omega), high (by omega)⟩
  case case3 => exact ⟨high (by omega), high (by omega), high (by omega)⟩
  case case4 => exact ⟨high (by omega), high (by omega), high (by omega), high (by omega)⟩

theorem next_reads (a : UInt8) (r : Bytes) : Reads a r (next a r) := by
  have bounds (low high : UInt8) : (decide (low ≤ a) && decide (a ≤ high)) = true ↔
      low.toNat ≤ a.toNat ∧ a.toNat ≤ high.toNat := by
    simp [UInt8.le_iff_toNat_le]
  unfold next width?
  by_cases one : a < 0x80
  · have small : a.toNat < 0x80 := one
    have own : (Char.ofNat a.toNat).toNat = a.toNat := ofNat_val (.inl (by omega))
    have read := encodeChar_ascii (c := Char.ofNat a.toNat) (by omega)
    rw [own, UInt8.ofNat_toNat] at read
    rw [if_pos one]
    exact ⟨[a], rfl, read⟩
  · have high : 0x80 ≤ a := UInt8.not_lt.mp one
    rw [if_neg one]
    simp only [bounds]
    by_cases two : (0xC2 : UInt8).toNat ≤ a.toNat ∧ a.toNat ≤ (0xDF : UInt8).toNat
    · rw [if_pos two]
      exact next2_reads two r
    rw [if_neg two]
    by_cases three : (0xE0 : UInt8).toNat ≤ a.toNat ∧ a.toNat ≤ (0xEF : UInt8).toNat
    · rw [if_pos three]
      exact next3_reads three r
    rw [if_neg three]
    by_cases four : (0xF0 : UInt8).toNat ≤ a.toNat ∧ a.toNat ≤ (0xF4 : UInt8).toNat
    · rw [if_pos four]
      exact next4_reads four r
    rw [if_neg four]
    exact reads_one high

theorem ascii_toNat (small : b < 0x80) : (Char.ofNat b.toNat).toNat = b.toNat := by
  have low : b.toNat < 0x80 := small
  exact ofNat_val (.inl (by omega))

theorem Chunk.From.shown_iff {chunk : Chunk} {taken : Bytes} (reads : chunk.From taken)
    (small : b < 0x80) : Char.ofNat b.toNat = chunk.shown ↔ b ∈ taken := by
  have value := ascii_toNat small
  have low : b.toNat < 0x80 := small
  cases chunk with
  | char c =>
    cases reads
    change _ = c ↔ _
    by_cases plain : c.toNat < 0x80
    · rw [encodeChar_ascii plain, List.mem_singleton]
      constructor
      · rintro rfl
        rw [value, UInt8.ofNat_toNat]
      · rintro rfl
        rw [UInt8.toNat_ofNat', Nat.mod_eq_of_lt (by omega), Char.ofNat_toNat]
    · constructor
      · rintro rfl
        omega
      · intro member
        exact absurd small (UInt8.not_lt.mpr (encodeChar_high (Nat.le_of_not_lt plain) b member))
  | invalid bytes =>
    constructor
    · intro same
      have large := congrArg Char.toNat same
      rw [value] at large
      change b.toNat = 0xFFFD at large
      omega
    · intro member
      exact absurd small (UInt8.not_lt.mpr (reads.2 b member))

theorem mem_lossyChars (small : b < 0x80) : Char.ofNat b.toNat ∈ lossyChars bs ↔ b ∈ bs := by
  unfold lossyChars
  fun_induction chunks bs with
  | case1 => simp
  | case2 a r short ih =>
    obtain ⟨taken, split, reads⟩ := next_reads a r
    rw [split, List.mem_append, List.map_cons, List.mem_cons, ih, reads.shown_iff small]

theorem chunks_small (small : b < 0x80) : chunks (b :: bs) = .char (Char.ofNat b.toNat) :: chunks bs := by
  have first : next b bs = (.char (Char.ofNat b.toNat), bs) := by simp [next, width?, small]
  rw [chunks, first]

theorem lossyChars_small (small : b < 0x80) : lossyChars (b :: bs) = Char.ofNat b.toNat :: lossyChars bs := by
  rw [lossyChars, chunks_small small]
  rfl

theorem lossyChars_append {front : Bytes} (plain : front.all (· < 0x80)) :
    lossyChars (front ++ bs) = ascii front ++ lossyChars bs := by
  induction front with
  | nil => rfl
  | cons a front ih =>
    simp only [List.all_cons, Bool.and_eq_true, decide_eq_true_eq] at plain
    rw [List.cons_append, lossyChars_small plain.1, ih plain.2]
    rfl

theorem chars?_eq (read : chars? bs = some cs) : encodeChars cs = bs ∧ lossyChars bs = cs := by
  unfold chars? at read
  unfold lossyChars
  fun_induction chunks bs generalizing cs with
  | case1 => cases read; exact ⟨rfl, rfl⟩
  | case2 a r short ih =>
    obtain ⟨taken, split, reads⟩ := next_reads a r
    rw [List.mapM_cons] at read
    obtain ⟨c, own, read⟩ := Option.bind_eq_some_iff.mp read
    obtain ⟨ds, later, same⟩ := Option.bind_eq_some_iff.mp read
    cases same
    obtain ⟨bytes, shown⟩ := ih later
    cases chunk : (next a r).1 with
    | char d =>
      rw [chunk] at own reads
      cases own
      cases reads
      rw [encodeChars, List.flatMap_cons, ← encodeChars, bytes, split, List.map_cons, shown]
      exact ⟨rfl, rfl⟩
    | invalid bytes =>
      rw [chunk] at own
      cases own

end TreeDigest.Utf8
