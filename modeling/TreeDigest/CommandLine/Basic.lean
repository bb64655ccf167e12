import TreeDigest.Options
import TreeDigest.Path.Basic
namespace TreeDigest

inductive Flag where
  | followLinks
  | parallelWalk
  | keepGoing
  | skipUnreadable
  | json
  | verbose
  deriving DecidableEq, Repr

structure Arguments where
  directory : Path := Path.ofString "."
  workers : Option UInt64 := none
  timeoutSeconds : Option UInt64 := none
  exclude : List String := []
  followLinks : Option Bool := none
  parallelWalk : Option Bool := none
  keepGoing : Option Bool := none
  skipUnreadable : Option Bool := none
  json : Option Bool := none
  verbose : Option Bool := none
  deriving DecidableEq, Repr, Inhabited

namespace Arguments

def flag? (a : Arguments) : Flag → Option Bool
  | .followLinks => a.followLinks
  | .parallelWalk => a.parallelWalk
  | .keepGoing => a.keepGoing
  | .skipUnreadable => a.skipUnreadable
  | .json => a.json
  | .verbose => a.verbose

def setFlag (a : Arguments) (f : Flag) (b : Bool) : Arguments :=
  match f with
  | .followLinks => { a with followLinks := some b }
  | .parallelWalk => { a with parallelWalk := some b }
  | .keepGoing => { a with keepGoing := some b }
  | .skipUnreadable => { a with skipUnreadable := some b }
  | .json => { a with json := some b }
  | .verbose => { a with verbose := some b }

end Arguments

inductive UsageError where
  | unknownArgument
  | invalidValue
  | valueValidation
  | argumentConflict
  | tooManyValues
  | invalidText
  | helpRequested
  deriving DecidableEq, Repr

namespace UsageError

def exitCode : UsageError → Nat
  | .helpRequested => 0
  | _ => 2

def message : UsageError → String
  | .unknownArgument => "unexpected argument"
  | .invalidValue => "invalid value"
  | .valueValidation => "a value is not a number in range"
  | .argumentConflict => "an option is given twice"
  | .tooManyValues => "unexpected value"
  | .invalidText => "a value is not valid UTF-8"
  | .helpRequested => "help requested"

end UsageError

inductive Target where
  | directory
  | workers
  | timeout
  | exclude
  | flag (f : Flag)
  deriving DecidableEq, Repr

def Target.accepts (count : Nat) : Target → Bool
  | .exclude => true
  | _ => count = 0

-- An option as it is declared: its names, how its value is shown, and what it is for. Only the one that
-- asks for help takes no value.
structure Declaration where
  target? : Option Target
  short? : Option Char
  long : String
  value : String
  about : String

def Declaration.description (d : Declaration) : String :=
  "  " ++ (match d.short? with
    | some c => "-" ++ c.toString ++ ", "
    | none => "    ") ++
    "--" ++ d.long ++ (if d.value.isEmpty then "" else " " ++ d.value) ++ "\n          " ++ d.about ++ "\n"

namespace CommandLine

def onOff (f : Flag) (short? : Option Char) (long value about : String) : Declaration :=
  ⟨some (.flag f), short?, long, "[<" ++ value ++ ">]", about ++ " [possible values: true, false]"⟩

def declarations : List Declaration :=
  [⟨some .workers, some 'w', "workers", "<WORKERS>",
      "Number of concurrent digest workers. Default: " ++ toString defaultWorkers ++
        ", capped by the open-file limit"⟩,
    ⟨some .timeout, some 't', "timeout", "<SECS>", "Give up after this many seconds"⟩,
    ⟨some .exclude, some 'e', "exclude", "<EXCLUDE>...",
      "Exclude patterns (glob syntax). Can specify multiple: -e pattern1 pattern2 pattern3"⟩,
    onOff .followLinks (some 'f') "follow-links" "FOLLOW_LINKS" "Follow symbolic links",
    onOff .parallelWalk (some 'p') "parallel-walk" "PARALLEL_WALK" "Walk directories in parallel",
    onOff .keepGoing (some 'k') "keep-going" "KEEP_GOING"
      "Keep going when a file cannot be read; report failures at the end",
    onOff .skipUnreadable (some 's') "skip-unreadable" "SKIP_UNREADABLE"
      "Skip unreadable directory entries instead of failing",
    onOff .json none "json" "JSON" "Print a JSON object instead of `digest  path` lines",
    onOff .verbose (some 'v') "verbose" "VERBOSE" "Verbose output",
    ⟨none, some 'h', "help", "", "Print help"⟩]

def long? (name : Bytes) : Option Declaration :=
  declarations.find? fun d => Utf8.encode d.long == name

def short? (letter : UInt8) : Option Declaration :=
  declarations.find? fun d => d.short?.any fun c => c.toNat == letter.toNat

def about : String := "Print the blake3 digest of every regular file under DIR, sorted by path."

def help : String :=
  about ++ "\n\nUsage: " ++ programName ++ " [OPTIONS] [DIR]\n\nArguments:\n" ++
    "  [DIR]  Directory to digest. Default: current directory [default: .]\n\nOptions:\n" ++
    String.join (declarations.map (·.description))

end CommandLine
end TreeDigest
