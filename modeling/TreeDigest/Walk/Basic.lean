import TreeDigest.Exclusion
import TreeDigest.FileSystem.Resolve
namespace TreeDigest

-- What keeps a walk from going on. Not every refusal of the system is of a known path.
inductive WalkError where
  | system (path : Path) (cause : SystemError)
  | unplaced (cause : SystemError)
  | loop (child ancestor : Path)
  deriving DecidableEq, Repr

namespace WalkError

def message : WalkError → String
  | .system path cause => "IO error for operation on " ++ path.display ++ ": " ++ cause.message
  | .unplaced cause => cause.message
  | .loop child ancestor =>
    "File system loop found: " ++ child.display ++ " points to an ancestor " ++ ancestor.display

def path : WalkError → Option Path
  | .system path _ => some path
  | .unplaced _ => none
  | .loop child _ => some child

def place (e : WalkError) : Path := e.path.getD (Path.ofString "<no-path>")

end WalkError

abbrev Visit := Except WalkError (Path × Kind)

structure TreeWalk where
  root : Path
  followLinks : Bool := false
  parallel : Bool := false
  exclude : List String := []
  skipUnreadable : Bool := false

namespace TreeWalk

def includes (w : TreeWalk) (path : Path) : Bool := Exclusion.includes path w.root w.exclude

-- An error at an excluded path is no error. One without a path always counts.
def heeds (w : TreeWalk) (e : WalkError) : Bool := e.path.all w.includes

theorem heeds_path {w : TreeWalk} {e : WalkError} {path : Path} (own : e.path = some path) :
    w.heeds e = w.includes path := by
  rw [heeds, own]
  rfl

@[simp] theorem heeds_system {w : TreeWalk} {path : Path} {cause : SystemError} :
    w.heeds (.system path cause) = w.includes path := rfl

@[simp] theorem heeds_loop {w : TreeWalk} {child ancestor : Path} :
    w.heeds (.loop child ancestor) = w.includes child := rfl

end TreeWalk

end TreeDigest
