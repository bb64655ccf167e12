import TreeDigest.Options
import TreeDigest.Text.Quoted
import TreeDigest.Toml.Parser
import TreeDigest.Toml.Range
namespace TreeDigest

structure Settings where
  workers : Option UInt64 := none
  timeoutSeconds : Option UInt64 := none
  exclude : Option (List String) := none
  followLinks : Option Bool := none
  parallelWalk : Option Bool := none
  skipUnreadable : Option Bool := none
  keepGoing : Option Bool := none
  json : Option Bool := none
  verbose : Option Bool := none
  deriving DecidableEq, Repr

inductive Expected where
  | size
  | seconds
  | sequence
  | string
  | boolean
  | settings
  deriving DecidableEq, Repr

def Expected.text : Expected → String
  | .size => "usize"
  | .seconds => "u64"
  | .sequence => "a sequence"
  | .string => "a string"
  | .boolean => "a boolean"
  | .settings => "struct SettingsSection"

inductive SettingsError where
  | malformed
  | unknownField (name : String)
  | wrongType (found : Toml.Value) (expected : Expected)
  | negative (n : Int) (expected : Expected)
  | tooShort (length : Nat)
  | overflow (kind : Toml.Overflow)

namespace Settings

def names : List String :=
  ["workers", "timeout_secs", "exclude", "follow_links", "parallel_walk", "skip_unreadable",
    "keep_going", "json", "verbose"]

end Settings

def Toml.Real.text : Toml.Real → String
  | .finite negative x => (if negative then "-" else "") ++ x.positional
  | .infinite negative => (if negative then "-" else "") ++ "inf"
  | .notANumber => "NaN"
  | .overflow => "inf"

-- An integer that takes more than 64 bits is told with the type that holds it.
def Toml.widthText (n : Int) : String :=
  if isWithin64Bits n || (0 ≤ n && n < Nat.pow 2 64) then ""
  else if n < Nat.pow 2 127 then " as i128"
  else " as u128"

def Toml.Value.described : Toml.Value → String
  | .string s => "string " ++ Text.quoted s
  | .integer n => "integer `" ++ toString n ++ "`" ++ widthText n
  | .real x => "floating point `" ++ x.text ++ "`"
  | .boolean b => "boolean `" ++ toString b ++ "`"
  | .array _ _ => "sequence"
  | .moment | .table _ _ => "map"

namespace SettingsError

def quotedNames : String := ", ".intercalate (Settings.names.map fun n => "`" ++ n ++ "`")

def message : SettingsError → String
  | .malformed => "malformed"
  | .unknownField name => "unknown field `" ++ name ++ "`, expected one of " ++ quotedNames
  | .wrongType found expected =>
    "invalid type: " ++ found.described ++ ", expected " ++ expected.text
  | .negative n expected =>
    "invalid value: integer `" ++ toString n ++ "`, expected " ++ expected.text
  | .tooShort length =>
    "invalid length " ++ toString length ++ ", expected " ++ Expected.settings.text ++ " with " ++
      toString Settings.names.length ++ " elements"
  | .overflow .integer => "integer number overflowed"
  | .overflow .real => "floating-point number overflowed"

end SettingsError
end TreeDigest
