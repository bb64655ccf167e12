import TreeDigest.Toml.Document
import TreeDigest.Toml.Scalar
namespace TreeDigest.Toml

mutual

-- One value and what follows it. The fuel bounds the steps, the depth what may still be opened.
def value : Nat → Nat → List Char → Option (Value × List Char)
  | 0, _, _ => none
  | fuel + 1, depth, cs =>
    match cs with
    | '"' :: '"' :: '"' :: rest => (multiline '"' fuel rest).map fun r => (.string r.1, r.2)
    | '"' :: rest => (string '"' false fuel rest).map fun r => (.string r.1, r.2)
    | '\'' :: '\'' :: '\'' :: rest => (multiline '\'' fuel rest).map fun r => (.string r.1, r.2)
    | '\'' :: rest => (string '\'' false fuel rest).map fun r => (.string r.1, r.2)
    | '[' :: rest =>
      if depth = 0 then none
      else (items fuel (depth - 1) rest).map fun r => (.array false r.1, r.2)
    | '\x7b' :: rest =>
      if depth = 0 then none
      else do
        let (ps, rest) ← pairs fuel (depth - 1) rest
        return (← buildInline ps, rest)
    | cs =>
      let (token, rest) := scalarToken cs
      (scalar? token).map fun v => (v, rest)

def items : Nat → Nat → List Char → Option (List Value × List Char)
  | 0, _, _ => none
  | fuel + 1, depth, cs => do
    match ← skipTrivia false cs with
    | ']' :: rest => return ([], rest)
    | cs =>
      let (v, rest) ← value fuel depth cs
      match ← skipTrivia false rest with
      | ',' :: rest =>
        let (vs, rest) ← items fuel depth rest
        return (v :: vs, rest)
      | ']' :: rest => return ([v], rest)
      | _ => none

def pairs : Nat → Nat → List Char → Option (List (List String × Value) × List Char)
  | 0, _, _ => none
  | fuel + 1, depth, cs => do
    match ← skipTrivia false cs with
    | '\x7d' :: rest => return ([], rest)
    | cs =>
      let (path, rest) ← key cs
      let rest ← expect '=' (← skipTrivia false rest)
      let (v, rest) ← value fuel depth (← skipTrivia false rest)
      match ← skipTrivia false rest with
      | ',' :: rest =>
        let (ps, rest) ← pairs fuel depth rest
        return ((path, v) :: ps, rest)
      | '\x7d' :: rest => return ([(path, v)], rest)
      | _ => none

end

def pair (cs : List Char) : Option (Statement × List Char) := do
  let (path, rest) ← key cs
  let rest ← expect '=' rest
  let (v, rest) ← value (rest.length + 1) deepest (skipBlanks rest)
  return (.pair path v, rest)

def statement : List Char → Option (Statement × List Char)
  | '[' :: '[' :: cs => do
    let (path, rest) ← key cs
    return (.element path, ← expect ']' (← expect ']' rest))
  | '[' :: cs => do
    let (path, rest) ← key cs
    return (.header path, ← expect ']' rest)
  | cs => pair cs

def statements : Nat → List Char → Option (List Statement)
  | 0, _ => none
  | fuel + 1, cs => do
    match ← skipTrivia false cs with
    | [] => return []
    | cs =>
      let (s, rest) ← statement cs
      return s :: (← statements fuel (← lineEnd rest))

def skipMark : List Char → List Char
  | '\uFEFF' :: cs => cs
  | cs => cs

def parse (text : String) : Option Value := do
  let cs := skipMark text.toList
  build (← statements (cs.length + 1) cs)

end TreeDigest.Toml
