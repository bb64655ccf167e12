import TreeDigest.Text.Printable
import TreeDigest.Text.Utf8
namespace TreeDigest.Text

def hexDigit (upper : Bool) (n : Nat) : Char :=
  if n < 10 then Char.ofNat (48 + n) else Char.ofNat ((if upper then 55 else 87) + n)

def hex (n : Nat) : List Char := Nat.toDigits 16 n

def hexByte (upper : Bool) (b : UInt8) : List Char :=
  [hexDigit upper (b.toNat / 16), hexDigit upper (b.toNat % 16)]

def codeEscape (c : Char) : List Char := '\\' :: 'u' :: '\x7b' :: hex c.toNat ++ ['\x7d']

def quoteChar (c : Char) : List Char :=
  match c with
  | '\x00' => ['\\', '0']
  | '\t' => ['\\', 't']
  | '\r' => ['\\', 'r']
  | '\n' => ['\\', 'n']
  | '\\' => ['\\', '\\']
  | '"' => ['\\', '"']
  | c => if isExtending c || !isPrintable c then codeEscape c else [c]

def quoted (s : String) : String :=
  String.ofList ('"' :: s.toList.flatMap quoteChar ++ ['"'])

def quoteChunk : Utf8.Chunk → List Char
  | .char c => quoteChar c
  | .invalid bytes => bytes.flatMap fun b => '\\' :: 'x' :: hexByte true b

def quotedBytes (bs : Bytes) : String :=
  String.ofList ('"' :: (Utf8.chunks bs).flatMap quoteChunk ++ ['"'])

end TreeDigest.Text
