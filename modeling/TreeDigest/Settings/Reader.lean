import TreeDigest.Settings.Basic
namespace TreeDigest.Settings

def refusal (v : Toml.Value) (expected : Expected) : SettingsError :=
  match v with
  | .integer n => if Toml.isWithin128Bits n then .wrongType v expected else .overflow .integer
  | .real .overflow => .overflow .real
  | v => .wrongType v expected

def readWord (expected : Expected) : Toml.Value → Except SettingsError UInt64
  | .integer n =>
    if 0 ≤ n ∧ n < UInt64.size then .ok n.toNat.toUInt64
    else if n < 0 ∧ Toml.isWithin64Bits n then .error (.negative n expected)
    else .error (refusal (.integer n) expected)
  | v => .error (refusal v expected)

def readBoolean : Toml.Value → Except SettingsError Bool
  | .boolean b => .ok b
  | v => .error (refusal v .boolean)

def readString : Toml.Value → Except SettingsError String
  | .string s => .ok s
  | v => .error (refusal v .string)

def readStrings : Toml.Value → Except SettingsError (List String)
  | .array _ items => items.mapM readString
  | v => .error (refusal v .sequence)

def readField (s : Settings) (name : String) (v : Toml.Value) : Except SettingsError Settings :=
  match name with
  | "workers" => (readWord .size v).map fun n => { s with workers := some n }
  | "timeout_secs" => (readWord .seconds v).map fun n => { s with timeoutSeconds := some n }
  | "exclude" => (readStrings v).map fun ps => { s with exclude := some ps }
  | "follow_links" => (readBoolean v).map fun b => { s with followLinks := some b }
  | "parallel_walk" => (readBoolean v).map fun b => { s with parallelWalk := some b }
  | "skip_unreadable" => (readBoolean v).map fun b => { s with skipUnreadable := some b }
  | "keep_going" => (readBoolean v).map fun b => { s with keepGoing := some b }
  | "json" => (readBoolean v).map fun b => { s with json := some b }
  | "verbose" => (readBoolean v).map fun b => { s with verbose := some b }
  | name => .error (.unknownField name)

-- The keys in byte order, so that of several wrong ones the first by name is reported.
def readEntries (entries : Toml.Entries) : Except SettingsError Settings :=
  entries.foldlM (fun s e => readField s e.1 e.2) {}

def readItems (s : Settings) (position : Nat) :
    List String → List Toml.Value → Except SettingsError Settings
  | [], _ => .ok s
  | _ :: _, [] => .error (.tooShort position)
  | name :: names, v :: items => do
    readItems (← readField s name v) (position + 1) names items

def readSection : Toml.Value → Except SettingsError Settings
  | .table _ entries => readEntries entries
  | .array _ items => readItems {} 0 names items
  | .moment => .error (.unknownField Toml.momentKey)
  | v => .error (refusal v .settings)

-- Only the section of this name is read. The rest is passed over, and nothing in it matters but a number
-- that is beyond every range.
def readEntry (s : Settings) (name : String) (v : Toml.Value) : Except SettingsError Settings :=
  if name = "settings" then readSection v
  else
    match v.overflow? with
    | some kind => .error (.overflow kind)
    | none => .ok s

def readDocument : Toml.Value → Except SettingsError Settings
  | .table _ entries => entries.foldlM (fun s e => readEntry s e.1 e.2) {}
  | _ => .ok {}

def read (text : String) : Except SettingsError Settings :=
  match Toml.parse text with
  | none => .error .malformed
  | some document => readDocument document

end TreeDigest.Settings
