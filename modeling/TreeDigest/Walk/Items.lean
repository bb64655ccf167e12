import TreeDigest.Report.Basic
import TreeDigest.Walk.Parallel
import TreeDigest.Walk.Serial
namespace TreeDigest

inductive WalkOutcome where
  | file (path : Path)
  | ignored
  | error (e : WalkError)
  deriving DecidableEq, Repr

namespace TreeWalk

def outcome (w : TreeWalk) : Visit → WalkOutcome
  | .ok (path, .file) => if w.includes path then .file path else .ignored
  | .ok _ => .ignored
  | .error e => if w.heeds e then .error e else .ignored

def visits (fs : FileSystem) (w : TreeWalk) : List Visit :=
  if w.parallel then parallelVisits fs w else serial fs w

def outcomes (fs : FileSystem) (w : TreeWalk) : List WalkOutcome := (visits fs w).map w.outcome

-- The walk as it is handed on: files, and errors unless they are skipped.
def item? (w : TreeWalk) : WalkOutcome → Option (Except String Path)
  | .file path => some (.ok path)
  | .ignored => none
  | .error e => if w.skipUnreadable then none else some (.error e.message)

def items (fs : FileSystem) (w : TreeWalk) : List (Except String Path) :=
  (outcomes fs w).filterMap w.item?

def skip? (w : TreeWalk) : WalkOutcome → Option (Path × String)
  | .error e => if w.skipUnreadable then some (e.place, e.message) else none
  | _ => none

def skipped (fs : FileSystem) (w : TreeWalk) : Complaints := (outcomes fs w).filterMap w.skip?

end TreeWalk
end TreeDigest
