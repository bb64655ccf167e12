import TreeDigest.Walk.Basic
namespace TreeDigest.TreeWalk

-- The kind of an entry, after links if they are followed. A followed link must not lead back to a
-- directory on the way to it; the closest one is reported.
def followed (fs : FileSystem) (w : TreeWalk) (trail : List Path) (path : Path) (kind : Kind) :
    Except WalkError Kind :=
  if w.followLinks && kind = .symlink then
    match fs.kind true path with
    | .error e => .error (.system path e)
    | .ok .directory =>
      match trail.find? (fs.same · path) with
      | some ancestor => .error (.loop path ancestor)
      | none => .ok .directory
    | .ok kind => .ok kind
  else .ok kind

-- Everything below a directory, depth first, by name. The trail holds this directory and those above
-- it. An excluded entry is left out with all that is below it.
def below (fs : FileSystem) (w : TreeWalk) (trail : List Path) (path : Path) : List Visit :=
  match _listed : fs.list path with
  | .error e => [.error (.system path e)]
  | .ok entries =>
    entries.flatMap fun e =>
      let child := path.join e.1.path
      match followed fs w trail child e.2 with
      | .error e => [.error e]
      | .ok kind =>
        if !w.includes child then []
        else
          .ok (child, kind) ::
            if kind = .directory then below fs w (child :: trail) child else []
termination_by FileSystem.longestPath + 1 - path.bytes.length
decreasing_by
  have := FileSystem.list_length _listed
  have := path.join_name_length e.1
  omega

def serialRoot (fs : FileSystem) (w : TreeWalk) (kind : Kind) : List Visit :=
  if kind = .directory then .ok (w.root, kind) :: below fs w [w.root] w.root
  else if kind = .symlink then
    match fs.kind true w.root with
    | .error e => [.error (.system w.root e)]
    | .ok .directory => .ok (w.root, kind) :: below fs w [w.root] w.root
    | .ok _ => [.ok (w.root, kind)]
  else [.ok (w.root, kind)]

def serial (fs : FileSystem) (w : TreeWalk) : List Visit :=
  match fs.kind false w.root with
  | .error e => [.error (.system w.root e)]
  | .ok kind =>
    match followed fs w [] w.root kind with
    | .error e => [.error e]
    | .ok kind => serialRoot fs w kind

end TreeDigest.TreeWalk
