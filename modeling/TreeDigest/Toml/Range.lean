import TreeDigest.Toml.Scalar
namespace TreeDigest.Toml

inductive Overflow where
  | integer
  | real
  deriving DecidableEq, Repr

-- The widest integers have 128 bits, with a sign or without one.
def isWithin128Bits (n : Int) : Bool := -Nat.pow 2 127 ≤ n && n < Nat.pow 2 128

def isWithin64Bits (n : Int) : Bool := -Nat.pow 2 63 ≤ n && n < Nat.pow 2 63

mutual

def Value.overflow? : Value → Option Overflow
  | .integer n => if isWithin128Bits n then none else some .integer
  | .real .overflow => some .real
  | .array _ items => overflowOfItems items
  | .table _ entries => overflowOfEntries entries
  | _ => none

def overflowOfItems : List Value → Option Overflow
  | [] => none
  | v :: rest => v.overflow?.or (overflowOfItems rest)

def overflowOfEntries : List (String × Value) → Option Overflow
  | [] => none
  | (_, v) :: rest => v.overflow?.or (overflowOfEntries rest)

end

def momentKey : String := "$__toml_private_datetime"

end TreeDigest.Toml
