namespace TreeDigest.Toml

-- Brackets, braces and dotted names nest no deeper than this.
def deepest : Nat := 80

def isBlank (c : Char) : Bool := c == ' ' || c == '\t'

def isText (c : Char) : Bool := c == '\t' || (' ' ≤ c && c ≠ '\x7f')

def skipBlanks (cs : List Char) : List Char := cs.dropWhile isBlank

-- A line ends with a line feed, which a carriage return may precede. A lone carriage return is wrong.
def newline? : List Char → Option (List Char)
  | '\n' :: rest => some rest
  | '\r' :: '\n' :: rest => some rest
  | _ => none

def lineEnd (cs : List Char) : Option (List Char) :=
  let rest :=
    match skipBlanks cs with
    | '#' :: comment => comment.dropWhile isText
    | rest => rest
  if rest.isEmpty then some [] else newline? rest

def skipTrivia (comment : Bool) : List Char → Option (List Char)
  | [] => some []
  | '\n' :: rest => skipTrivia false rest
  | '\r' :: '\n' :: rest => skipTrivia false rest
  | '\r' :: _ => none
  | c :: rest =>
    if comment then (if isText c then skipTrivia true rest else none)
    else if isBlank c then skipTrivia false rest
    else if c = '#' then skipTrivia true rest
    else some (c :: rest)

def digitValue? (c : Char) : Option Nat :=
  if '0' ≤ c && c ≤ '9' then some (c.toNat - 48)
  else if 'a' ≤ c && c ≤ 'z' then some (c.toNat - 87)
  else if 'A' ≤ c && c ≤ 'Z' then some (c.toNat - 55)
  else none

def isDigitOf (base : Nat) (c : Char) : Bool := (digitValue? c).any (· < base)

def valueOf (base : Nat) (digits : List Char) : Nat :=
  digits.foldl (fun n c => n * base + (digitValue? c).getD 0) 0

def codePoint? (digits : Nat) (cs : List Char) : Option (Char × List Char) :=
  let hex := cs.take digits
  let n := valueOf 16 hex
  if hex.length = digits ∧ hex.all (isDigitOf 16) ∧ n.isValidChar then
    some (Char.ofNat n, cs.drop digits)
  else none

def escape? : List Char → Option (Char × List Char)
  | 'b' :: rest => some ('\x08', rest)
  | 't' :: rest => some ('\t', rest)
  | 'n' :: rest => some ('\n', rest)
  | 'f' :: rest => some ('\x0c', rest)
  | 'r' :: rest => some ('\r', rest)
  | 'e' :: rest => some ('\x1b', rest)
  | '"' :: rest => some ('"', rest)
  | '\\' :: rest => some ('\\', rest)
  | 'x' :: rest => codePoint? 2 rest
  | 'u' :: rest => codePoint? 4 rest
  | 'U' :: rest => codePoint? 8 rest
  | _ => none

def skipGap : List Char → List Char
  | '\r' :: '\n' :: rest => skipGap rest
  | c :: rest => if isBlank c || c = '\n' then skipGap rest else c :: rest
  | [] => []

def continuation? (cs : List Char) : Option (List Char) :=
  (newline? (skipBlanks cs)).map skipGap

-- Three quotes end a string of several lines; up to two more before them belong to it.
def closing? (quote : Char) (cs : List Char) : Option (List Char × List Char) :=
  let run := (cs.takeWhile (· == quote)).length
  if 3 ≤ run then
    let size := min run 5
    some (List.replicate (size - 3) quote, cs.drop size)
  else none

-- The text up to the closing quote, and what follows it. Only double quotes know escapes, and only
-- strings of several lines hold line ends. One unit of fuel for each character is enough.
def stringFrom (quote : Char) (lines : Bool) : Nat → List Char → Option (List Char × List Char)
  | 0, _ => none
  | fuel + 1, cs =>
    let next (c : Char) (rest : List Char) :=
      (stringFrom quote lines fuel rest).map fun r => (c :: r.1, r.2)
    match cs with
    | [] => none
    | c :: rest =>
      if c = quote then
        if lines then (closing? quote cs).orElse fun _ => next c rest else some ([], rest)
      else if c = '\\' && quote = '"' then
        match escape? rest with
        | some (e, rest) => next e rest
        | none =>
          if lines then (continuation? rest).bind (stringFrom quote lines fuel) else none
      else if isText c then next c rest
      else if lines then
        match c, rest with
        | '\n', rest => next '\n' rest
        | '\r', '\n' :: rest =>
          (stringFrom quote lines fuel rest).map fun r => ('\r' :: '\n' :: r.1, r.2)
        | _, _ => none
      else none

def string (quote : Char) (lines : Bool) (fuel : Nat) (cs : List Char) :
    Option (String × List Char) :=
  (stringFrom quote lines fuel cs).map fun r => (String.ofList r.1, r.2)

def multiline (quote : Char) (fuel : Nat) (cs : List Char) : Option (String × List Char) :=
  string quote true fuel ((newline? cs).getD cs)

def isBareKey (c : Char) : Bool :=
  ('a' ≤ c && c ≤ 'z') || ('A' ≤ c && c ≤ 'Z') || ('0' ≤ c && c ≤ '9') || c == '_' || c == '-'

def simpleKey : List Char → Option (String × List Char)
  | '"' :: rest => string '"' false rest.length rest
  | '\'' :: rest => string '\'' false rest.length rest
  | cs =>
    let name := cs.takeWhile isBareKey
    if name.isEmpty then none else some (String.ofList name, cs.dropWhile isBareKey)

def keyFrom : Nat → List Char → Option (List String × List Char)
  | 0, _ => none
  | fuel + 1, cs => do
    let (name, rest) ← simpleKey (skipBlanks cs)
    match skipBlanks rest with
    | '.' :: rest =>
      let (names, rest) ← keyFrom fuel rest
      return (name :: names, rest)
    | rest => return ([name], rest)

def key (cs : List Char) : Option (List String × List Char) := do
  let (names, rest) ← keyFrom (cs.length + 1) cs
  if deepest < names.length then none else return (names, rest)

end TreeDigest.Toml
