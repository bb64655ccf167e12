import TreeDigest.Text.Quoted
namespace TreeDigest

-- The part of JSON that reports are made of. An object keeps its members in the order given.
inductive Json where
  | text (s : String)
  | object (members : List (String × Json))
  deriving Repr, Inhabited

namespace Json

def ofMap (entries : List (String × String)) : Json :=
  .object (entries.map fun e => (e.1, .text e.2))

def escapeChar (c : Char) : List Char :=
  match c with
  | '"' => ['\\', '"']
  | '\\' => ['\\', '\\']
  | '\x08' => ['\\', 'b']
  | '\t' => ['\\', 't']
  | '\n' => ['\\', 'n']
  | '\x0c' => ['\\', 'f']
  | '\r' => ['\\', 'r']
  | c =>
    if c.toNat < 32 then '\\' :: 'u' :: '0' :: '0' :: Text.hexByte false c.toNat.toUInt8 else [c]

def string (s : String) : List Char := '"' :: s.toList.flatMap escapeChar ++ ['"']

def newline (depth : Nat) : List Char := '\n' :: List.replicate (2 * depth) ' '

mutual

def print (depth : Nat) : Json → List Char
  | .text s => string s
  | .object [] => ['\x7b', '\x7d']
  | .object (m :: rest) =>
    '\x7b' :: printMembers (depth + 1) (m :: rest) ++ newline depth ++ ['\x7d']

def printMembers (depth : Nat) : List (String × Json) → List Char
  | [] => []
  | [(key, value)] => newline depth ++ string key ++ [':', ' '] ++ print depth value
  | (key, value) :: m :: rest =>
    newline depth ++ string key ++ [':', ' '] ++ print depth value ++ [','] ++
      printMembers depth (m :: rest)

end

def pretty (j : Json) : String := String.ofList (print 0 j)

end Json
end TreeDigest
