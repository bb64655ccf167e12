import TreeDigest.FileSystem.Basic
namespace TreeDigest

inductive Place where
  | root (node : Node)
  | child (parent : Place) (name : Name) (node : Node)
  deriving Inhabited

namespace Place

def node : Place → Node
  | .root node => node
  | .child _ _ node => node

def parent : Place → Place
  | .root node => .root node
  | .child parent _ _ => parent

def top : Place → Place
  | .root node => .root node
  | .child parent _ _ => parent.top

-- The names that lead here, innermost first. Two look-ups met at one place exactly if these agree.
def names : Place → List Name
  | .root _ => []
  | .child parent name _ => name :: parent.names

def descend? (p : Place) : List Name → Option Place
  | [] => some p
  | n :: rest =>
    match p.node.entries.find? (·.1 == n) with
    | some (n, node) => descend? (.child p n node) rest
    | none => none

end Place

namespace FileSystem

def longestName : Nat := 255
def longestPath : Nat := 4095
def mostLinks : Nat := 40

inductive Found where
  | place (p : Place)
  | link (p : Place) (target : Path)

def enter (p : Place) (segment : Bytes) : Except SystemError Found :=
  match p.node with
  | .directory entries =>
    if Path.isTrivial segment then .ok (.place p)
    else if segment = [Path.dot, Path.dot] then .ok (.place p.parent)
    else if longestName < segment.length then .error .nameTooLong
    else
      match entries.find? (·.1.bytes == segment) with
      | none => .error .notFound
      | some (n, node) =>
        match node with
        | .symlink target => .ok (.link (.child p n node) target)
        | _ => .ok (.place (.child p n node))
  | _ => .error .notDirectory

-- A link is followed from the directory it stands in, or from the root if its target is absolute. The
-- last link stays as it is unless it is to be followed.
def resolve (follow : Bool) (links : Nat) (p : Place) : List Bytes → Except SystemError Place
  | [] => .ok p
  | segment :: rest =>
    match enter p segment with
    | .error e => .error e
    | .ok (.place q) => resolve follow links q rest
    | .ok (.link q target) =>
      if rest.isEmpty && !follow then .ok q
      else
        match links with
        | 0 => .error .tooManyLinks
        | links + 1 =>
          resolve follow links (if target.isAbsolute then p.top else p)
            (Path.segments target.bytes ++ rest)
termination_by segments => (links, segments.length)

def start? (fs : FileSystem) (path : Path) : Option Place :=
  if path.isAbsolute then some (.root fs.root) else (Place.root fs.root).descend? fs.current

def find (fs : FileSystem) (follow : Bool) (path : Path) : Except SystemError Place :=
  if path.bytes.contains 0 then .error .nulInName
  else if path.isEmpty then .error .notFound
  else if longestPath < path.bytes.length then .error .nameTooLong
  else
    match fs.start? path with
    | none => .error .notFound
    | some p => resolve follow mostLinks p (Path.segments path.bytes)

def kind (fs : FileSystem) (follow : Bool) (path : Path) : Except SystemError Kind :=
  (fs.find follow path).map (·.node.kind)

def list (fs : FileSystem) (path : Path) : Except SystemError (List (Name × Kind)) :=
  match fs.find true path with
  | .error e => .error e
  | .ok p =>
    match p.node with
    | .directory entries =>
      .ok ((entries.map fun e => (e.1, e.2.kind)).mergeSort fun a b => (Name.compare a.1 b.1).isLE)
    | _ => .error .notDirectory

def target? (fs : FileSystem) (path : Path) : Option Path :=
  match fs.find false path with
  | .ok p =>
    match p.node with
    | .symlink target => some target
    | _ => none
  | .error _ => none

def isFile (fs : FileSystem) (path : Path) : Bool :=
  match fs.kind true path with
  | .ok .file => true
  | _ => false

def isDirectory (fs : FileSystem) (path : Path) : Bool :=
  match fs.kind true path with
  | .ok .directory => true
  | _ => false

def same (fs : FileSystem) (a b : Path) : Bool :=
  match fs.find true a, fs.find true b with
  | .ok p, .ok q => p.names == q.names
  | _, _ => false

theorem find_length {fs : FileSystem} {follow : Bool} {path : Path} {p : Place}
    (found : fs.find follow path = .ok p) : path.bytes.length ≤ longestPath := by
  unfold find at found
  split at found
  · cases found
  · split at found
    · cases found
    · split at found
      · cases found
      · next long => exact Nat.le_of_not_lt long

theorem list_length {fs : FileSystem} {path : Path} {entries : List (Name × Kind)}
    (listed : fs.list path = .ok entries) : path.bytes.length ≤ longestPath := by
  unfold list at listed
  split at listed
  · cases listed
  · next found => exact find_length found

end FileSystem

theorem Path.join_name_length (p : Path) (n : Name) :
    p.bytes.length < (p.join n.path).bytes.length := by
  have pos : 0 < n.bytes.length := List.length_pos_iff.2 n.valid.1
  have relative : n.path.isAbsolute = false := by
    cases e : n.bytes with
    | nil => simp [Path.isAbsolute, Name.path, e]
    | cons b r =>
      have slashless := n.valid.2.1
      rw [e] at slashless
      have : b ≠ Path.slash := fun h => slashless (by simp [h])
      simpa [Path.isAbsolute, Name.path, e] using this
  unfold Path.join
  rw [relative]
  simp only [Bool.false_eq_true, if_false]
  split
  · next h => simp [Name.path, List.isEmpty_iff.1 h, pos]
  · split
    · simp [Name.path, pos]
    · simp [Name.path]

end TreeDigest
