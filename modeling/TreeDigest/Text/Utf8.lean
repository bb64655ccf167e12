namespace TreeDigest

abbrev Bytes := List UInt8

namespace Utf8

-- What one step of reading bytes as UTF-8 finds: a character, or a maximal run of bytes that starts
-- like a character and cannot be completed.
inductive Chunk where
  | char (c : Char)
  | invalid (bytes : Bytes)
  deriving DecidableEq, Repr

def isContinuation (b : UInt8) : Bool := 0x80 ≤ b && b ≤ 0xBF

def width? (first : UInt8) : Option Nat :=
  if first < 0x80 then some 1
  else if 0xC2 ≤ first && first ≤ 0xDF then some 2
  else if 0xE0 ≤ first && first ≤ 0xEF then some 3
  else if 0xF0 ≤ first && first ≤ 0xF4 then some 4
  else none

-- The second byte is restricted further where overlong forms, surrogates or values above the last
-- code point would begin.
def isSecond (first second : UInt8) : Bool :=
  if first = 0xE0 then 0xA0 ≤ second && second ≤ 0xBF
  else if first = 0xED then 0x80 ≤ second && second ≤ 0x9F
  else if first = 0xF0 then 0x90 ≤ second && second ≤ 0xBF
  else if first = 0xF4 then 0x80 ≤ second && second ≤ 0x8F
  else isContinuation second

def codePoint (firstBits : Nat) (more : Bytes) : Nat :=
  more.foldl (fun n b => n * 64 + b.toNat % 64) firstBits

def char (firstBits : Nat) (more : Bytes) : Chunk := .char (Char.ofNat (codePoint firstBits more))

def next2 (a : UInt8) : Bytes → Chunk × Bytes
  | b :: r => if isSecond a b then (char (a.toNat % 32) [b], r) else (.invalid [a], b :: r)
  | [] => (.invalid [a], [])

def next3 (a : UInt8) : Bytes → Chunk × Bytes
  | b :: c :: r =>
    if !isSecond a b then (.invalid [a], b :: c :: r)
    else if !isContinuation c then (.invalid [a, b], c :: r)
    else (char (a.toNat % 16) [b, c], r)
  | [b] => if isSecond a b then (.invalid [a, b], []) else (.invalid [a], [b])
  | [] => (.invalid [a], [])

def next4 (a : UInt8) : Bytes → Chunk × Bytes
  | b :: c :: d :: r =>
    if !isSecond a b then (.invalid [a], b :: c :: d :: r)
    else if !isContinuation c then (.invalid [a, b], c :: d :: r)
    else if !isContinuation d then (.invalid [a, b, c], d :: r)
    else (char (a.toNat % 8) [b, c, d], r)
  | [b, c] =>
    if !isSecond a b then (.invalid [a], [b, c])
    else if !isContinuation c then (.invalid [a, b], [c])
    else (.invalid [a, b, c], [])
  | [b] => if isSecond a b then (.invalid [a, b], []) else (.invalid [a], [b])
  | [] => (.invalid [a], [])

def next (a : UInt8) (rest : Bytes) : Chunk × Bytes :=
  match width? a with
  | some 1 => (.char (Char.ofNat a.toNat), rest)
  | some 2 => next2 a rest
  | some 3 => next3 a rest
  | some 4 => next4 a rest
  | _ => (.invalid [a], rest)

theorem next2_length (a : UInt8) (r : Bytes) : (next2 a r).2.length ≤ r.length := by
  unfold next2; split
  · split <;> simp
  · simp

theorem next3_length (a : UInt8) (r : Bytes) : (next3 a r).2.length ≤ r.length := by
  unfold next3; split
  · split
    · simp
    · split
      · simp
      · simp; omega
  · split <;> simp
  · simp

theorem next4_length (a : UInt8) (r : Bytes) : (next4 a r).2.length ≤ r.length := by
  unfold next4; split
  · split
    · simp
    · split
      · simp
      · split
        · simp
        · simp; omega
  · split
    · simp
    · split <;> simp
  · split <;> simp
  · simp

theorem next_length (a : UInt8) (r : Bytes) : (next a r).2.length ≤ r.length := by
  unfold next; split
  · simp
  · exact next2_length a r
  · exact next3_length a r
  · exact next4_length a r
  · simp

def chunks : Bytes → List Chunk
  | [] => []
  | a :: r =>
    have : (next a r).2.length < r.length + 1 := Nat.lt_succ_of_le (next_length a r)
    (next a r).1 :: chunks (next a r).2
termination_by bs => bs.length

def Chunk.char? : Chunk → Option Char
  | .char c => some c
  | .invalid _ => none

def Chunk.shown : Chunk → Char
  | .char c => c
  | .invalid _ => '\uFFFD'

def lossyChars (bs : Bytes) : List Char := (chunks bs).map Chunk.shown

def lossy (bs : Bytes) : String := String.ofList (lossyChars bs)

def chars? (bs : Bytes) : Option (List Char) := (chunks bs).mapM Chunk.char?

def text? (bs : Bytes) : Option String := (chars? bs).map String.ofList

def ascii (bs : Bytes) : List Char := bs.map fun b => Char.ofNat b.toNat

theorem chunks_ascii {bs : Bytes} (plain : bs.all (· < 0x80)) : chunks bs = (ascii bs).map .char := by
  induction bs with
  | nil => simp [chunks, ascii]
  | cons b rest ih =>
    simp only [List.all_cons, Bool.and_eq_true, decide_eq_true_eq] at plain
    have first : next b rest = (.char (Char.ofNat b.toNat), rest) := by
      simp [next, width?, plain.1]
    rw [chunks, first]
    simp [ascii, ih plain.2]

theorem lossyChars_ascii {bs : Bytes} (plain : bs.all (· < 0x80)) : lossyChars bs = ascii bs := by
  rw [lossyChars, chunks_ascii plain, List.map_map]
  exact List.map_id _

theorem mapM_char? (cs : List Char) : (cs.map Chunk.char).mapM Chunk.char? = some cs := by
  induction cs with
  | nil => rfl
  | cons c cs ih => simp [Chunk.char?, ih]

theorem text?_ascii {bs : Bytes} (plain : bs.all (· < 0x80)) :
    text? bs = some (String.ofList (ascii bs)) := by
  rw [text?, chars?, chunks_ascii plain, mapM_char?]
  rfl

def encodeChars (cs : List Char) : Bytes := cs.flatMap String.utf8EncodeChar

def encode (s : String) : Bytes := encodeChars s.toList

end Utf8
end TreeDigest
