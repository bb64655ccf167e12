namespace TreeDigest

-- A nonnegative number in double precision: `significand * 2 ^ exponent`.
structure Binary64 where
  significand : Nat
  exponent : Int
  deriving DecidableEq, Repr

namespace Binary64

def leastExponent : Int := -1074
def greatestExponent : Int := 971

def pow2 (k : Int) : Nat := Nat.pow 2 k.toNat

def scale (num den : Nat) (e : Int) : Nat × Nat := (num * pow2 (-e), den * pow2 e)

def roundDiv (num den : Nat) : Nat :=
  let q := num / den
  let twice := 2 * (num % den)
  if twice < den then q
  else if den < twice then q + 1
  else q + q % 2

def exponentOf (num den : Nat) : Int :=
  let guess := max leastExponent ((Nat.log2 num : Int) - Nat.log2 den - 53)
  let (n, d) := scale num den guess
  if n / d < Nat.pow 2 53 then guess else guess + 1

def ofRatio? (num den : Nat) : Option Binary64 :=
  if num = 0 then some ⟨0, leastExponent⟩
  else
    let e := exponentOf num den
    let (n, d) := scale num den e
    let m := roundDiv n d
    let (m, e) := if m = Nat.pow 2 53 then (Nat.pow 2 52, e + 1) else (m, e)
    if e ≤ greatestExponent then some ⟨m, e⟩ else none

-- The double nearest to `digits * 10 ^ power`. A power far outside the range of doubles decides by
-- itself, before its value is computed.
def ofDecimal? (digits : Nat) (power : Int) : Option Binary64 :=
  let size : Int := (Nat.toDigits 10 digits).length + power
  if digits = 0 ∨ size < -400 then some ⟨0, leastExponent⟩
  else if 400 < size then none
  else ofRatio? (digits * Nat.pow 10 power.toNat) (Nat.pow 10 (-power).toNat)

def ratio (x : Binary64) : Nat × Nat := scale x.significand 1 (-x.exponent)

def floor (x : Binary64) : Nat := x.ratio.1 / x.ratio.2

def mul? (x y : Binary64) : Option Binary64 :=
  ofRatio? (x.ratio.1 * y.ratio.1) (x.ratio.2 * y.ratio.2)

def readsBack (x : Binary64) (digits : Nat) (power : Int) : Bool :=
  ofDecimal? digits power == some x

def distance (x : Binary64) (digits : Nat) (power : Int) : Nat :=
  let a := x.ratio.1 * Nat.pow 10 (-power).toNat
  let b := digits * Nat.pow 10 power.toNat * x.ratio.2
  (a - b) + (b - a)

-- The value's two neighbours on the grid of multiples of `10 ^ power` that read back, nearer first. Of
-- two that are equally near the greater one comes first.
def candidates (x : Binary64) (power : Int) : List Nat :=
  let low := x.ratio.1 * Nat.pow 10 (-power).toNat / (x.ratio.2 * Nat.pow 10 power.toNat)
  let hits := [low, low + 1].filter fun d => x.readsBack d power
  match hits with
  | [a, b] => if x.distance a power < x.distance b power then [a, b] else [b, a]
  | hits => hits

def magnitude (x : Binary64) : Int :=
  let (n, d) := x.ratio
  if d ≤ n then ((Nat.toDigits 10 (n / d)).length : Int) - 1
  else -((Nat.toDigits 10 (d / n)).length : Int)

-- The fewest digits that read back, and the power of ten they stand at. Seventeen always suffice. The
-- first grid is a place above the leading digit, as a value may round up to the next power of ten.
def shortest (x : Binary64) : Nat × Int :=
  if x.significand = 0 then (0, 0)
  else
    let tries := (List.range 19).filterMap fun (k : Nat) =>
      let power := x.magnitude + 1 - k
      (x.candidates power).head?.map fun d => (d, power)
    tries.headD (0, 0)

def positional (x : Binary64) : String :=
  let (digits, power) := x.shortest
  if 0 ≤ power then toString (digits * Nat.pow 10 power.toNat) ++ ".0"
  else
    let places := (-power).toNat
    let text := Nat.toDigits 10 digits
    let padded := List.replicate (places + 1 - text.length) '0' ++ text
    String.ofList (padded.take (padded.length - places) ++ '.' :: padded.drop (padded.length - places))

end Binary64
end TreeDigest
