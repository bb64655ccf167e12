import TreeDigest.Toml.Lexical
import TreeDigest.Toml.Value
namespace TreeDigest.Toml

def digits? (base : Nat) (cs : List Char) : Option (List Char) :=
  let groups := cs.splitOn '_'
  if groups.all (fun g => !g.isEmpty && g.all (isDigitOf base)) then some groups.flatten else none

def decimal? (cs : List Char) : Option (List Char) :=
  match digits? 10 cs with
  | some ('0' :: _ :: _) => none
  | result => result

def signed : List Char → Bool × List Char
  | '-' :: rest => (true, rest)
  | '+' :: rest => (false, rest)
  | cs => (false, cs)

def integer? : List Char → Option Int
  | '0' :: 'x' :: cs => (digits? 16 cs).map fun ds => valueOf 16 ds
  | '0' :: 'o' :: cs => (digits? 8 cs).map fun ds => valueOf 8 ds
  | '0' :: 'b' :: cs => (digits? 2 cs).map fun ds => valueOf 2 ds
  | cs =>
    let (negative, cs) := signed cs
    (decimal? cs).map fun ds => if negative then -(valueOf 10 ds : Int) else valueOf 10 ds

def isExponentMark (c : Char) : Bool := c == 'e' || c == 'E'

def exponent? : List Char → Option Int
  | [] => some 0
  | _ :: cs =>
    let (negative, cs) := signed cs
    (digits? 10 cs).map fun ds => if negative then -(valueOf 10 ds : Int) else valueOf 10 ds

def fraction? : List Char → Option (List Char)
  | [] => some []
  | '.' :: cs => digits? 10 cs
  | _ => none

def finite (negative : Bool) (digits : List Char) (power : Int) : Real :=
  match Binary64.ofDecimal? (valueOf 10 digits) power with
  | some x => .finite negative x
  | none => .overflow

def real? (cs : List Char) : Option Real := do
  let (negative, cs) := signed cs
  if cs = ['i', 'n', 'f'] then return .infinite negative
  if cs = ['n', 'a', 'n'] then return .notANumber
  let mantissa := cs.takeWhile (!isExponentMark ·)
  let exponent := cs.dropWhile (!isExponentMark ·)
  let whole ← decimal? (mantissa.takeWhile (· ≠ '.'))
  let point := mantissa.dropWhile (· ≠ '.')
  let fraction ← fraction? point
  let e ← exponent? exponent
  if point.isEmpty && exponent.isEmpty then none
  else return finite negative (whole ++ fraction) (e - fraction.length)

def field? (count low high : Nat) (cs : List Char) : Option (Nat × List Char) :=
  let ds := cs.take count
  let n := valueOf 10 ds
  if ds.length = count ∧ ds.all (isDigitOf 10) ∧ low ≤ n ∧ n ≤ high then some (n, cs.drop count)
  else none

def isLeapYear (year : Nat) : Bool := (year % 4 = 0 ∧ year % 100 ≠ 0) ∨ year % 400 = 0

def daysIn (year month : Nat) : Nat :=
  if month = 2 then (if isLeapYear year then 29 else 28)
  else if [4, 6, 9, 11].contains month then 30
  else 31

def expect (c : Char) : List Char → Option (List Char)
  | d :: rest => if d = c then some rest else none
  | [] => none

def date? (cs : List Char) : Option (List Char) := do
  let (year, cs) ← field? 4 0 9999 cs
  let (month, cs) ← field? 2 1 12 (← expect '-' cs)
  let (_, cs) ← field? 2 1 (daysIn year month) (← expect '-' cs)
  return cs

def subsecond? : List Char → Option (List Char)
  | '.' :: cs => if cs.head?.any (isDigitOf 10) then some (cs.dropWhile (isDigitOf 10)) else none
  | cs => some cs

def time? (cs : List Char) : Option (List Char) := do
  let (_, cs) ← field? 2 0 23 cs
  let (_, cs) ← field? 2 0 59 (← expect ':' cs)
  match cs with
  | ':' :: cs =>
    let (_, cs) ← field? 2 0 60 cs
    subsecond? cs
  | cs => return cs

def offset? : List Char → Option (List Char)
  | ['Z'] | ['z'] => some []
  | '+' :: cs | '-' :: cs => do
    let (_, cs) ← field? 2 0 23 cs
    let (_, cs) ← field? 2 0 59 (← expect ':' cs)
    return cs
  | cs => some cs

def isDateMark (c : Char) : Bool := c == 'T' || c == 't' || c == ' '

def isMoment (cs : List Char) : Bool :=
  match date? cs with
  | some [] => true
  | some (mark :: rest) => isDateMark mark && ((time? rest).bind offset?) == some []
  | none => time? cs == some []

def isScalarChar (c : Char) : Bool := isBareKey c || c == '+' || c == '.' || c == ':'

-- A date may have its time after a single blank.
def scalarToken (cs : List Char) : List Char × List Char :=
  let token := cs.takeWhile isScalarChar
  let rest := cs.dropWhile isScalarChar
  match rest with
  | ' ' :: c :: more =>
    if date? token == some [] && isDigitOf 10 c then
      (token ++ ' ' :: (c :: more).takeWhile isScalarChar, (c :: more).dropWhile isScalarChar)
    else (token, rest)
  | _ => (token, rest)

def scalar? (token : List Char) : Option Value :=
  if token = ['t', 'r', 'u', 'e'] then some (.boolean true)
  else if token = ['f', 'a', 'l', 's', 'e'] then some (.boolean false)
  else
    match integer? token, real? token with
    | some n, _ => some (.integer n)
    | none, some x => some (.real x)
    | none, none => if isMoment token then some .moment else none

end TreeDigest.Toml
