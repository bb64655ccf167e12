import TreeDigest.Walk.Basic
namespace TreeDigest.TreeWalk

-- An entry as this walk sees it: the path it goes by, and where its own entries are to be read.
structure Branch where
  path : Path
  kind : Kind
  readAt : Option Path

def respelled (path : Path) : Path :=
  ((path.parent?).getD ⟨[]⟩).join ⟨(path.fileName?).getD path.bytes⟩

def branchAt (path : Path) (kind : Kind) : Branch :=
  ⟨respelled path, kind, if kind = .directory then some path else none⟩

-- A followed link must not name a directory on the way to it. Only the spelling of its target counts.
def followLink (fs : FileSystem) (ancestors : List Path) (path : Path) : Except WalkError Branch :=
  match fs.kind true path with
  | .error e => .error (.system path e)
  | .ok .directory =>
    match ancestors.find? fun a => (fs.target? path).any (· == a) with
    | some ancestor => .error (.loop path ancestor)
    | none => .ok (branchAt path .directory)
  | .ok kind => .ok (branchAt path kind)

def branch (fs : FileSystem) (w : TreeWalk) (ancestors : List Path) (path : Path) (kind : Kind) :
    Except WalkError Branch :=
  if w.followLinks && kind = .symlink then followLink fs ancestors path
  else .ok ⟨path, kind, if kind = .directory then some path else none⟩

def isFailed : Except WalkError Branch → Bool
  | .ok _ => false
  | .error _ => true

-- Entries come before errors, and excluded entries are left out.
def arrange (w : TreeWalk) (branches : List (Except WalkError Branch)) :
    List (Except WalkError Branch) :=
  let kept := branches.filter fun
    | .ok b => w.includes b.path
    | .error _ => true
  kept.filter (!isFailed ·) ++ kept.filter isFailed

theorem mem_arrange {w : TreeWalk} {branches : List (Except WalkError Branch)}
    {b : Except WalkError Branch} (h : b ∈ arrange w branches) : b ∈ branches := by
  simp only [arrange, List.mem_append, List.mem_filter] at h
  rcases h with h | h <;> exact h.1.1

theorem branch_readAt {fs : FileSystem} {w : TreeWalk} {ancestors : List Path} {path q : Path}
    {kind : Kind} {b : Branch} (h : branch fs w ancestors path kind = .ok b)
    (read : b.readAt = some q) : q = path := by
  unfold branch at h
  split at h
  · unfold followLink at h
    split at h
    · cases h
    · split at h
      · cases h
      · cases h; simpa [branchAt, eq_comm] using read
    · next kind _ _ =>
      cases h
      simp only [branchAt] at read
      split at read
      · simpa [eq_comm] using read
      · cases read
  · cases h
    simp only at read
    split at read
    · simpa [eq_comm] using read
    · cases read

def belowParallel (fs : FileSystem) (w : TreeWalk) (ancestors : List Path) (path : Path) :
    List Visit :=
  match _listed : fs.list path with
  | .error _ => []
  | .ok entries =>
    let ancestors := path :: ancestors
    let branches := entries.map fun e => branch fs w ancestors (path.join e.1.path) e.2
    (arrange w branches).attach.flatMap fun ⟨b, _member⟩ =>
      match b with
      | .error e => [.error e]
      | .ok b =>
        .ok (b.path, b.kind) ::
          match _read : b.readAt with
          | some q => belowParallel fs w ancestors q
          | none => []
termination_by FileSystem.longestPath + 1 - path.bytes.length
decreasing_by
  have := FileSystem.list_length _listed
  obtain ⟨e, _, eq⟩ := List.mem_map.1 (mem_arrange _member)
  have := path.join_name_length e.1
  rw [branch_readAt eq _read]
  omega

def rootBranch (fs : FileSystem) (w : TreeWalk) (kind : Kind) : Except WalkError Branch :=
  let b := branchAt w.root kind
  if kind = .symlink then
    if w.followLinks then followLink fs [w.root] b.path
    else
      match fs.kind true b.path with
      | .error e => .error (.system b.path e)
      | .ok .directory => .ok { b with readAt := some b.path }
      | .ok _ => .ok b
  else .ok b

def parallelVisits (fs : FileSystem) (w : TreeWalk) : List Visit :=
  match fs.kind false w.root with
  | .error e => [.error (.system w.root e)]
  | .ok kind =>
    match rootBranch fs w kind with
    | .error e => [.error e]
    | .ok b =>
      if !w.includes b.path then []
      else
        .ok (b.path, b.kind) ::
          match b.readAt with
          | some q => belowParallel fs w (if w.followLinks then [w.root] else []) q
          | none => []

end TreeDigest.TreeWalk
