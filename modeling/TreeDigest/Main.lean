import TreeDigest.Program
namespace TreeDigest

-- What has been seen of the real file system: a copy of the parts that matter, and the directories
-- that were read for it. Places are absolute and free of links.
structure Snapshot where
  files : FileSystem
  seen : List String := []

namespace Snapshot

def namesOf (place : String) : List Name :=
  (Path.segments (Utf8.encode place)).filterMap Name.ofBytes?

def put (s : Snapshot) (place : String) (node : Node) (distinct : node.Distinct) : Snapshot :=
  { s with files := s.files.put (namesOf place) node distinct }

def putDirectory (s : Snapshot) (place : String) : Snapshot :=
  if ((Place.root s.files.root).descend? (namesOf place)).isSome then s else s.put place .empty .empty

-- A link goes by where it really leads. One to nowhere leads to a name that no entry has, and one
-- that cannot be followed leads to itself.
def target (e : IO.FS.DirEntry) : IO Path := do
  try
    let _ ← e.path.metadata
    return Path.ofString (← IO.FS.realPath e.path).toString
  catch
    | .noFileOrDirectory _ _ _ => return ⟨[0]⟩
    | _ => return Path.ofString e.fileName

partial def load (follow : Bool) (e : IO.FS.DirEntry) (s : Snapshot) : IO Snapshot := do
  let place := e.path.toString
  match (← e.path.symlinkMetadata).type with
  | .file => return s.put place (.file (← IO.FS.readBinFile place).toList) .file
  | .other => return s.put place .special .special
  | .symlink =>
    let t ← target e
    let s := s.put place (.symlink t) .symlink
    if follow && (← e.path.pathExists) then load follow ⟨"/", t.display⟩ s else return s
  | .dir =>
    if s.seen.contains place then return s
    let mut s := { s.putDirectory place with seen := place :: s.seen }
    for child in ← e.path.readDir do
      s ← load follow child s
    return s

def route (place : List String) (s : Snapshot) : IO Snapshot := do
  let mut s := s
  for n in List.range place.length do
    try
      let above ← IO.FS.realPath ("/".intercalate (place.take n ++ ["."]))
      let e : IO.FS.DirEntry := ⟨above, place.getD n "."⟩
      if (← e.path.symlinkMetadata).type == .symlink then
        s := s.put e.path.toString (.symlink (← target e)) .symlink
    catch _ => pure ()
  return s

def start : IO Snapshot := do
  let current := (← IO.currentDir).toString
  return Snapshot.putDirectory ⟨{ current := namesOf current }, []⟩ current

def add (follow : Bool) (path : String) (s : Snapshot) : IO Snapshot := do
  let s ← s.route (path.splitOn "/")
  try
    let real ← IO.FS.realPath path
    load follow ⟨"/", real.toString⟩ s
  catch _ => return s

end Snapshot

def softLimit : IO Nat := do
  try
    let table ← IO.FS.readFile "/proc/self/limits"
    let row := (table.splitOn "\n").find? (·.startsWith "Max open files")
    return ((row.bind fun r => (r.splitOn " ").findSome? (·.toNat?))).getD (UInt64.size - 1)
  catch _ => return UInt64.size - 1

def runInPlace (args : List String) : IO (Option Ending) := do
  let bytes := args.map Utf8.encode
  let soft ← softLimit
  let s ← Snapshot.start
  match CommandLine.parse bytes with
  | .error _ => return Program.run s.files soft bytes
  | .ok a =>
    let s ← s.add true (Configuration.file a.directory).display
    let follow := (Configuration.options s.files a).1.digest.followLinks
    let s ← s.add follow a.directory.display
    return Program.run s.files soft bytes

end TreeDigest

def main (args : List String) : IO UInt32 := do
  match ← TreeDigest.runInPlace args with
  | some ending =>
    IO.print ending.output
    IO.eprint ending.noticeText
    return ending.exitCode.toUInt32
  | none =>
    IO.eprintln "the run did not come to an end"
    return 1
