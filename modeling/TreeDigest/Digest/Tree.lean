import TreeDigest.Blake3.Hasher
import TreeDigest.FileSystem.Resolve
import TreeDigest.Options
import TreeDigest.Pipeline.Schedule
import TreeDigest.Text.Quoted
import TreeDigest.Walk.Items
namespace TreeDigest

def hashMapped (content : Bytes) : Digest := (Blake3.Hasher.empty.update content).finalize

def hashContent (content : Bytes) : Digest :=
  if mapThreshold < content.length then hashMapped content
  else Blake3.hashReads (Blake3.reads readSize content)

-- What can go wrong is told with the step at which it did. A directory can be opened, but not read.
-- Special files are taken as empty.
def hashFile (fs : FileSystem) (path : Path) : Except String Digest :=
  match fs.find true path with
  | .error e => .error ("open " ++ path.display ++ ": " ++ e.message)
  | .ok p =>
    match p.node with
    | .file content => .ok (hashContent content)
    | .directory _ => .error ("read " ++ path.display ++ ": " ++ SystemError.isDirectory.message)
    | .symlink _ | .special => .ok (hashContent [])

namespace TreeWalk

-- The settings file never takes part.
def ofOptions (root : Path) (o : DigestOptions) : TreeWalk where
  root := root
  followLinks := o.followLinks
  parallel := o.parallelWalk
  exclude := defaultExclude ++ o.exclude
  skipUnreadable := o.skipUnreadable

def pull : Except String Path → Pull Path
  | .ok path => .item path
  | .error m => .error m

def source (fs : FileSystem) (w : TreeWalk) : Enumerator Path :=
  .ofList ((w.items fs).map pull)

end TreeWalk

namespace Digesting

def attempt (fs : FileSystem) (path : Path) : Attempt Digest :=
  match hashFile fs path with
  | .ok d => .value d
  | .error m => .error m

def shown (path : Path) : String := Text.quotedBytes path.bytes

def client (o : DigestOptions) : Client Path Digest :=
  { policy := if o.keepGoing then .keepGoing else .failFast, shown }

def job (fs : FileSystem) (root : Path) (o : DigestOptions) (tuning : Tuning) : Job Path Digest :=
  Pipeline.job tuning ((TreeWalk.ofOptions root o).source fs) (attempt fs)

def report (fs : FileSystem) (root : Path) (o : DigestOptions) (c : Collected Path Digest) : Report where
  digests := c.toMap Path.compare
  failures := Complaints.sort c.failures
  skipped := (TreeWalk.ofOptions root o).skipped fs

def conclude (fs : FileSystem) (root : Path) (o : DigestOptions) :
    RunResult Path Digest → Option (Except PipelineError Report)
  | .ok c => some (.ok (report fs root o c))
  | .error e => some (.error e)
  | .panicked => none

-- How a digest can end, whatever the order in which the threads move.
inductive Ends (fs : FileSystem) (root : Path) (o : DigestOptions) (caller : Option Signal) :
    Except PipelineError Report → Prop where
  | refused {e : PipelineError} :
      (Pipeline.start? o.run caller : Except _ (Tuning × Pipeline Path Digest)) = .error e →
      Ends fs root o caller (.error e)
  | returned {tuning : Tuning} {p : Pipeline Path Digest} {s : Run Path Digest}
      {r : RunResult Path Digest} {result : Except PipelineError Report} :
      Pipeline.start? o.run caller = .ok (tuning, p) →
      Run.Reaches (job fs root o tuning) (client o) (Run.start p) s →
      s.result? = some r → conclude fs root o r = some result →
      Ends fs root o caller result

def concurrent (fs : FileSystem) (root : Path) (o : DigestOptions) (caller : Option Signal) :
    Option (Except PipelineError (Report × List Path)) :=
  match Pipeline.start? o.run caller with
  | .error e => some (.error e)
  | .ok (tuning, p) => do
    let s ← Schedule.complete (job fs root o tuning) (client o) (fun _ => false) (Run.start p)
    let r ← s.result?
    let result ← conclude fs root o r
    return result.map fun report => (report, s.seen.map (·.item))

-- Walks and hashes in turn. The caller's signal is looked at before each item, and the first error
-- ends it.
def serialFrom (fs : FileSystem) (o : DigestOptions) (tripped : Bool) :
    Report → List (Except String Path) → Except PipelineError Report
  | report, [] => .ok report
  | report, next :: rest =>
    if tripped then .error .cancelled
    else
      match next with
      | .error m => .error (.enumeration m)
      | .ok path =>
        match hashFile fs path with
        | .ok d =>
          serialFrom fs o tripped { report with digests := Digests.insert path d report.digests } rest
        | .error m =>
          if o.keepGoing then
            serialFrom fs o tripped { report with failures := report.failures ++ [(path, m)] } rest
          else .error (.transform (shown path) m)

def serial (fs : FileSystem) (root : Path) (o : DigestOptions) (caller : Option Signal) :
    Except PipelineError Report :=
  let w := TreeWalk.ofOptions root o
  (serialFrom fs o (caller.any (·.isTripped)) {} (w.items fs)).map fun report =>
    { report with skipped := w.skipped fs }

end Digesting
end TreeDigest
