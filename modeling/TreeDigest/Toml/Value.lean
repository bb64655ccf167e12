import TreeDigest.Number.Binary64
import TreeDigest.OrderedMap
namespace TreeDigest.Toml

-- A number with a point or an exponent. One beyond the greatest double has no value.
inductive Real where
  | finite (negative : Bool) (magnitude : Binary64)
  | infinite (negative : Bool)
  | notANumber
  | overflow
  deriving Repr

-- How a table came to be: under its own header, on the way to another header, by a dotted key, or in
-- braces. This decides what may still be added to it.
inductive Origin where
  | header
  | implied
  | dotted
  | inline
  deriving DecidableEq, Repr

-- What a key stands for. A moment in time is checked and then forgotten, as no setting is one. Arrays
-- of tables that grow with their headers are told apart from arrays in brackets.
inductive Value where
  | string (s : String)
  | integer (n : Int)
  | real (x : Real)
  | boolean (b : Bool)
  | moment
  | array (growing : Bool) (items : List Value)
  | table (origin : Origin) (entries : List (String × Value))
  deriving Inhabited

abbrev Entries := List (String × Value)

def Entries.get? (entries : Entries) (key : String) : Option Value :=
  (entries.find? (·.1 == key)).map (·.2)

def Entries.put (entries : Entries) (key : String) (value : Value) : Entries :=
  OrderedMap.insert compare key value entries

end TreeDigest.Toml
