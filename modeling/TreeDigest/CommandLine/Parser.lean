import TreeDigest.CommandLine.Basic
namespace TreeDigest.CommandLine

def dash : UInt8 := 45
def equals : UInt8 := 61

inductive Token where
  | endOfOptions
  | option (d : Declaration) (attached : Option Bytes)
  | unknown
  | plain

def splitAtEquals : Bytes → Bytes × Option Bytes
  | [] => ([], none)
  | b :: r => if b = equals then ([], some r) else ((b :: (splitAtEquals r).1), (splitAtEquals r).2)

def afterLetter : Bytes → Option Bytes
  | [] => none
  | b :: r => some (if b = equals then r else b :: r)

def Token.ofLong (body : Bytes) : Token :=
  match long? (splitAtEquals body).1 with
  | some d => .option d (splitAtEquals body).2
  | none => .unknown

-- An option that takes no value does not look at what follows its letter.
def Token.ofShort (letter : UInt8) (rest : Bytes) : Token :=
  match short? letter with
  | some d => .option d (if d.target?.isNone then none else afterLetter rest)
  | none => .unknown

def Token.ofArgument : Bytes → Token
  | a :: b :: rest =>
    if a ≠ dash then .plain
    else if b ≠ dash then .ofShort b rest
    else if rest.isEmpty then .endOfOptions
    else .ofLong rest
  | _ => .plain

def readText (value : Bytes) : Except UsageError String :=
  match Utf8.text? value with
  | some s => .ok s
  | none => .error .invalidText

def word? (cs : List Char) : Option UInt64 :=
  let digits := if cs.head? = some '+' then cs.tail else cs
  let n := Nat.ofDigitChars 10 digits 0
  if digits.isEmpty || digits.any (!·.isDigit) || UInt64.size ≤ n then none else some n.toUInt64

def readWord (value : Bytes) : Except UsageError UInt64 := do
  let text ← readText value
  match word? text.toList with
  | some n => .ok n
  | none => .error .valueValidation

def readBoolean (value : Bytes) : Except UsageError Bool :=
  if value = Utf8.encode "true" then .ok true
  else if value = Utf8.encode "false" then .ok false
  else .error .invalidValue

def once (given : Option α) : Except UsageError Unit :=
  if given.isSome then .error .argumentConflict else .ok ()

def give (a : Arguments) : Target → List Bytes → Except UsageError Arguments
  | .directory, v :: _ =>
    if v.isEmpty then .error .invalidValue else .ok { a with directory := ⟨v⟩ }
  | .workers, v :: _ => do
    once a.workers
    return { a with workers := some (← readWord v) }
  | .timeout, v :: _ => do
    once a.timeoutSeconds
    return { a with timeoutSeconds := some (← readWord v) }
  | .exclude, v :: vs => do
    return { a with exclude := a.exclude ++ (← (v :: vs).mapM readText) }
  | .flag f, [] => do
    once (a.flag? f)
    return a.setFlag f true
  | .flag f, v :: _ => do
    once (a.flag? f)
    return a.setFlag f (← readBoolean v)
  | _, [] => .error .invalidValue

-- Values are collected for a target until the next one is named, and only then looked at.
structure Pending where
  target : Target
  values : List Bytes := []

def Pending.isOpen (p : Pending) : Bool := p.target.accepts p.values.length

structure State where
  arguments : Arguments := {}
  placed : Bool := false
  pending : Option Pending := none

namespace State

def settled (s : State) : Except UsageError Arguments :=
  match s.pending with
  | some p => give s.arguments p.target p.values
  | none => .ok s.arguments

def expect (s : State) (p : Pending) : Except UsageError State :=
  s.settled.map fun a => { s with arguments := a, pending := some p }

def place (s : State) (arg : Bytes) : Except UsageError State :=
  if s.placed then .error .unknownArgument
  else (s.expect ⟨.directory, [arg]⟩).map fun s => { s with placed := true }

def plain (s : State) (arg : Bytes) : Except UsageError State :=
  match s.pending with
  | some p =>
    if p.isOpen then .ok { s with pending := some { p with values := p.values ++ [arg] } }
    else s.place arg
  | none => s.place arg

-- What was collected before is looked at first, unless help is given a value.
def option (s : State) (d : Declaration) (attached : Option Bytes) : Except UsageError State :=
  match d.target?, attached with
  | some t, some v => do
    let a ← give (← s.settled) t [v]
    return { s with arguments := a, pending := none }
  | some t, none => s.expect ⟨t, []⟩
  | none, some _ => .error .tooManyValues
  | none, none => do
    let _ ← s.settled
    .error .helpRequested

end State

-- An unknown option is reported before anything that is wrong with what precedes it. After the end of
-- options every argument is a directory.
def parseFrom : State → List Bytes → Except UsageError Arguments
  | s, [] => s.settled
  | s, arg :: rest =>
    match Token.ofArgument arg with
    | .endOfOptions => do (← rest.foldlM State.place s).settled
    | .option d attached => do parseFrom (← s.option d attached) rest
    | .unknown => .error .unknownArgument
    | .plain => do parseFrom (← s.plain arg) rest

def parse (args : List Bytes) : Except UsageError Arguments := parseFrom {} args

end TreeDigest.CommandLine
