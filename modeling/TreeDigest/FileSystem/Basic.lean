import TreeDigest.Path.Basic
namespace TreeDigest

inductive SystemError where
  | notFound
  | notDirectory
  | isDirectory
  | nameTooLong
  | tooManyLinks
  | nulInName
  deriving DecidableEq, Repr

def SystemError.message : SystemError → String
  | .notFound => "No such file or directory (os error 2)"
  | .notDirectory => "Not a directory (os error 20)"
  | .isDirectory => "Is a directory (os error 21)"
  | .nameTooLong => "File name too long (os error 36)"
  | .tooManyLinks => "Too many levels of symbolic links (os error 40)"
  | .nulInName => "file name contained an unexpected NUL byte"

inductive Node where
  | file (content : Bytes)
  | directory (entries : List (Name × Node))
  | symlink (target : Path)
  | special
  deriving Inhabited

inductive Kind where
  | file
  | directory
  | symlink
  | special
  deriving DecidableEq, Repr

namespace Node

def kind : Node → Kind
  | .file _ => .file
  | .directory _ => .directory
  | .symlink _ => .symlink
  | .special => .special

def empty : Node := .directory []

def entries : Node → List (Name × Node)
  | .directory entries => entries
  | _ => []

inductive Distinct : Node → Prop where
  | file {content : Bytes} : Distinct (.file content)
  | directory {entries : List (Name × Node)} (names : (entries.map (·.1)).Nodup)
      (below : ∀ e ∈ entries, Distinct e.2) : Distinct (.directory entries)
  | symlink {target : Path} : Distinct (.symlink target)
  | special : Distinct .special

theorem Distinct.empty : Node.empty.Distinct := .directory .nil nofun

theorem Distinct.entries {node : Node} (distinct : node.Distinct) :
    (node.entries.map (·.1)).Nodup ∧ ∀ e ∈ node.entries, e.2.Distinct := by
  cases distinct with
  | directory names below => exact ⟨names, below⟩
  | file | symlink | special => exact ⟨.nil, nofun⟩

def putEntry (n : Name) (node : Node) : List (Name × Node) → List (Name × Node)
  | [] => [(n, node)]
  | e :: rest => if e.1 = n then (n, node) :: rest else e :: putEntry n node rest

-- Puts a node below a directory, with the directories on the way to it. What stands there before is
-- replaced.
def write : Node → List Name → Node → Node
  | _, [], node => node
  | top, n :: rest, node =>
    let below := ((top.entries.find? (·.1 == n)).map (·.2)).getD .empty
    .directory (putEntry n (below.write rest node) top.entries)

variable {top node : Node} {n : Name} {entries : List (Name × Node)}

theorem mem_putEntry {e : Name × Node} (member : e ∈ putEntry n node entries) :
    e ∈ entries ∨ e = (n, node) := by
  induction entries with
  | nil => exact .inr (List.mem_singleton.mp member)
  | cons first rest ih =>
    unfold putEntry at member
    split at member
    · rcases List.mem_cons.mp member with rfl | later
      · exact .inr rfl
      · exact .inl (List.mem_cons_of_mem _ later)
    · rcases List.mem_cons.mp member with rfl | later
      · exact .inl (List.mem_cons_self ..)
      · exact (ih later).imp_left (List.mem_cons_of_mem _)

theorem putEntry_nodup (names : (entries.map (·.1)).Nodup) :
    ((putEntry n node entries).map (·.1)).Nodup := by
  induction entries with
  | nil => exact List.nodup_cons.mpr ⟨List.not_mem_nil, .nil⟩
  | cons first rest ih =>
    obtain ⟨new, names⟩ := List.nodup_cons.mp names
    unfold putEntry
    split
    · rename_i same
      subst same
      exact List.nodup_cons.mpr ⟨new, names⟩
    · rename_i other
      refine List.nodup_cons.mpr ⟨fun member => ?_, ih names⟩
      obtain ⟨e, present, same⟩ := List.mem_map.mp member
      rcases mem_putEntry present with old | rfl
      · exact new (same ▸ List.mem_map_of_mem old)
      · exact other same.symm

theorem Distinct.write (distinct : top.Distinct) (also : node.Distinct) (names : List Name) :
    (top.write names node).Distinct := by
  induction names generalizing top with
  | nil => exact also
  | cons n rest ih =>
    obtain ⟨apart, below⟩ := distinct.entries
    have inner : (((top.entries.find? (·.1 == n)).map (·.2)).getD Node.empty).Distinct := by
      cases found : top.entries.find? (·.1 == n) with
      | none => exact .empty
      | some e => exact below e (List.mem_of_find?_eq_some found)
    refine .directory (putEntry_nodup apart) fun e member => ?_
    rcases mem_putEntry member with old | rfl
    · exact below e old
    · exact ih inner

end Node

-- The whole tree, and the directory in it from which relative paths start.
structure FileSystem where
  root : Node := .empty
  current : List Name := []
  distinct : root.Distinct := by exact .empty

instance : Inhabited FileSystem := ⟨{}⟩

namespace FileSystem

def put (fs : FileSystem) (names : List Name) (node : Node) (distinct : node.Distinct) : FileSystem :=
  { fs with root := fs.root.write names node, distinct := fs.distinct.write distinct names }

def write (fs : FileSystem) (names : List Name) (node : Node) (distinct : node.Distinct) : FileSystem :=
  fs.put (fs.current ++ names) node distinct

end FileSystem

end TreeDigest
