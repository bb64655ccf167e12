import TreeDigest.CommandLine.Basic
import TreeDigest.Configuration
import TreeDigest.Digest.Tree
import TreeDigest.OpenFiles
import TreeDigest.Report.Printer
namespace TreeDigest

inductive Notice where
  | progress (text : String)
  | warning (text : String)
  | failure (text : String)
  deriving DecidableEq, Repr

def Notice.line : Notice → String
  | .progress text => "[" ++ programName ++ "] " ++ text ++ "\n"
  | .warning text => "[" ++ programName ++ " WARN] " ++ text ++ "\n"
  | .failure text => "Error: " ++ text ++ "\n"

structure Ending where
  exitCode : Nat
  output : String := ""
  notices : List Notice := []
  deriving DecidableEq, Repr

def Ending.noticeText (e : Ending) : String := String.join (e.notices.map (·.line))

namespace Program

def misused : UsageError → Ending
  | .helpRequested => { exitCode := UsageError.helpRequested.exitCode, output := CommandLine.help }
  | e => { exitCode := e.exitCode, notices := [.failure e.message] }

def capped (soft : Nat) (o : Options) : Options :=
  { o with digest.run.workers := OpenFiles.capWorkers soft o.digest.run.workers }

def ignored (e : ConfigurationError) : Notice := .warning ("ignoring config file: " ++ e.message)

def lowered (soft requested : Nat) : List Notice :=
  let workers := OpenFiles.capWorkers soft requested
  if workers = requested then []
  else
    [.warning ("Requested " ++ toString requested ++
      " workers exceeds the open-file budget; using " ++ toString workers)]

def skipping (skipped : Complaints) : List Notice :=
  skipped.map fun e => .warning ("skipping " ++ e.1.display ++ ": " ++ e.2)

def itemsFailed (failures : Complaints) : List Notice :=
  if failures.isEmpty then [] else [.warning (toString failures.length ++ " items failed")]

def unread (directory : Path) (failures : Complaints) : List Notice :=
  failures.map fun e =>
    .warning ("could not digest " ++ e.1.displayUnder directory ++ ": " ++ e.2)

def summary (r : Report) : Notice :=
  .progress (toString r.digests.length ++ " files digested, " ++ toString r.failures.length ++
    " failed, " ++ toString r.skipped.length ++ " skipped")

def indented (text : String) : String :=
  String.ofList ("    ".toList ++ text.toList.flatMap fun c => if c = '\n' then "\n    ".toList else [c])

def caused (directory : Path) (e : PipelineError) : Notice :=
  .failure ("digest " ++ directory.display ++ "\n\nCaused by:\n" ++ indented e.message)

def rendered (o : Options) (directory : Path) (r : Report) : String :=
  if o.json then r.jsonText directory ++ "\n" else r.lines directory

def reported (o : Options) (directory : Path) (r : Report) : Ending where
  exitCode := if r.failures.isEmpty then 0 else 1
  output := rendered o directory r
  notices :=
    skipping r.skipped ++ itemsFailed r.failures ++ unread directory r.failures ++ [summary r] ++
      if r.failures.isEmpty then []
      else [.failure (toString r.failures.length ++ " files could not be digested")]

-- Without workers not even the walk begins.
def failed (fs : FileSystem) (o : Options) (directory : Path) (e : PipelineError) : Ending where
  exitCode := 1
  notices :=
    (if e = .invalidWorkerCount then []
      else skipping ((TreeWalk.ofOptions directory o.digest).skipped fs)) ++ [caused directory e]

def concluded (fs : FileSystem) (o : Options) (directory : Path) :
    Except PipelineError Report → Ending
  | .ok r => reported o directory r
  | .error e => failed fs o directory e

def prepared (fs : FileSystem) (soft : Nat) (a : Arguments) : Options × List Notice :=
  let (o, e?) := Configuration.options fs a
  (capped soft o, (e?.map ignored).toList ++ lowered soft o.digest.run.workers)

-- How the program can end, whatever the order in which its threads move.
inductive Ends (fs : FileSystem) (soft : Nat) (args : List Bytes) : Ending → Prop where
  | misused {e : UsageError} : CommandLine.parse args = .error e → Ends fs soft args (misused e)
  | ran {a : Arguments} {result : Except PipelineError Report} :
      CommandLine.parse args = .ok a →
      Digesting.Ends fs a.directory (prepared fs soft a).1.digest (some default) result →
      Ends fs soft args
        { concluded fs (prepared fs soft a).1 a.directory result with
          notices := (prepared fs soft a).2 ++
            (concluded fs (prepared fs soft a).1 a.directory result).notices }

def run (fs : FileSystem) (soft : Nat) (args : List Bytes) : Option Ending :=
  match CommandLine.parse args with
  | .error e => some (misused e)
  | .ok a => do
    let (o, notices) := prepared fs soft a
    let result ← Digesting.concurrent fs a.directory o.digest (some default)
    let e := concluded fs o a.directory (result.map (·.1))
    return { e with notices := notices ++ e.notices }

end Program
end TreeDigest
