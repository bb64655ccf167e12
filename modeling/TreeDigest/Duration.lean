namespace TreeDigest

structure Duration where
  nanoseconds : Nat
  deriving DecidableEq, Repr, Inhabited

namespace Duration

def ofSeconds (n : Nat) : Duration := ⟨n * 1000000000⟩
def ofMilliseconds (n : Nat) : Duration := ⟨n * 1000000⟩

def seconds (d : Duration) : Nat := d.nanoseconds / 1000000000
def subsecond (d : Duration) : Nat := d.nanoseconds % 1000000000

def decimal (whole fraction places : Nat) : List Char :=
  let digits := Nat.toDigits 10 fraction
  let padded := List.replicate (places - digits.length) '0' ++ digits
  let kept := (padded.reverse.dropWhile (· == '0')).reverse
  Nat.toDigits 10 whole ++ (if fraction = 0 then [] else '.' :: kept)

def text (d : Duration) : String :=
  let n := d.nanoseconds
  let scaled (size places : Nat) (unit : String) :=
    String.ofList (decimal (n / size) (n % size) places) ++ unit
  if 1000000000 ≤ n then scaled 1000000000 9 "s"
  else if 1000000 ≤ n then scaled 1000000 6 "ms"
  else if 1000 ≤ n then scaled 1000 3 "µs"
  else scaled 1 0 "ns"

end Duration
end TreeDigest
