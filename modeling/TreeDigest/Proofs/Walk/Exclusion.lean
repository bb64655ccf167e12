import Mathlib.Data.List.Infix
import TreeDigest.Proofs.FileSystem.Meeting
import TreeDigest.Proofs.Walk.Reach
namespace TreeDigest.TreeWalk
open FileSystem

def Excluded (fs : FileSystem) (w : TreeWalk) (names : List Name) : Prop :=
  ∃ here front rest, fs.find true w.root = .ok here ∧ front ≠ [] ∧
    w.includes (w.root.below front) = false ∧ names = here.names.reverse ++ front ++ rest

-- Two trees that differ only in what a walk leaves out, where none of its look-ups comes by that: neither
-- the one of its root, nor, if links are followed, that of an entry it goes to.
structure Hides (fs gs : FileSystem) (w : TreeWalk) : Prop where
  alike : fs.Alike gs (w.Excluded fs)
  root : fs.Clear (w.Excluded fs) w.root
  links : w.followLinks = true → ∀ names, w.Passes w.root names →
    fs.Clear (w.Excluded fs) (w.root.below names)

-- Both trees hold the same under these names, or refuse them alike. Where links are not followed, the names
-- lead straight down from the root.
structure Meets (fs gs : FileSystem) (w : TreeWalk) (root : Path) (names : List Name) : Prop where
  passes : w.Passes w.root names
  meet : Meet (Twin fs gs (w.Excluded fs)) (fs.find true (root.below names))
    (gs.find true (root.below names))
  straight : w.followLinks = false → ∀ base here, fs.find true w.root = .ok base →
    fs.find true (root.below names) = .ok here → here.names.reverse = base.names.reverse ++ names

variable {fs gs : FileSystem} {w : TreeWalk} {root path : Path} {names : List Name} {n : Name}
  {here : Place} {node : Node}

theorem excluded_part : Part (w.Excluded fs) where
  below names back := by
    rintro ⟨here, front, rest, found, proper, excluded, rfl⟩
    exact ⟨here, front, rest ++ back, found, proper, excluded, by simp⟩
  proper := by
    rintro ⟨here, front, rest, -, proper, -, none⟩
    simp [proper] at none

theorem passes_snoc : w.Passes path (names ++ [n]) ↔
    w.Passes path names ∧ w.includes ((path.below names).join n.path) = true := by
  have last : path.below (names ++ [n]) = (path.below names).join n.path := Path.below_append ..
  rw [← last]
  constructor
  · intro passes
    refine ⟨fun front proper begins => ?_, passes _ (by simp) List.prefix_rfl⟩
    exact passes front proper (begins.trans (List.prefix_append ..))
  · rintro ⟨passes, included⟩ front proper begins
    rcases List.prefix_concat_iff.mp begins with rfl | shorter
    · exact included
    · exact passes front proper shorter

theorem Passes.kept {base : Place} (passes : w.Passes w.root names)
    (found : fs.find true w.root = .ok base) : ¬ w.Excluded fs (base.names.reverse ++ names) := by
  rintro ⟨here, front, rest, also, proper, excluded, same⟩
  cases found.symm.trans also
  rw [List.append_assoc, List.append_cancel_left_eq] at same
  have included := passes front proper ⟨rest, same.symm⟩
  rw [excluded] at included
  cases included

section Spelled
variable (nonempty : w.root.bytes ≠ []) (spelled : root.components = w.root.components)
include nonempty spelled

theorem includes_below (names : List Name) :
    w.includes (root.below names) = w.includes (w.root.below names) := by
  have proper := Path.components_ne_nil nonempty
  unfold TreeWalk.includes Exclusion.includes
  rw [Path.stripPrefix?_below proper spelled, Path.stripPrefix?_below proper rfl]

theorem Meets.passes_next (meets : Meets fs gs w root names)
    (included : w.includes ((root.below names).join n.path) = true) : w.Passes w.root (names ++ [n]) := by
  refine passes_snoc.mpr ⟨meets.passes, ?_⟩
  have own := includes_below nonempty spelled (names ++ [n])
  rw [Path.below_append, Path.below_append] at own
  exact own.symm.trans included

end Spelled

namespace Hides

theorem start (hides : Hides fs gs w) (spelled : root.components = w.root.components) :
    Meets fs gs w root [] where
  passes := passes_nil
  meet := find_twin hides.alike excluded_part (hides.root.respelled spelled) true
  straight _ base here found also := by rw [find_respelled found also spelled, List.append_nil]

theorem followed (hides : Hides fs gs w) (follow : w.followLinks = true) (passes : w.Passes w.root names)
    (same : path.components = (w.root.below names).components) (last : Bool) :
    Meet (Twin fs gs (w.Excluded fs)) (fs.find last path) (gs.find last path) :=
  find_twin hides.alike excluded_part ((hides.links follow names passes).respelled same) last

variable (hides : Hides fs gs w) (nonempty : w.root.bytes ≠ [])
  (spelled : root.components = w.root.components)
include hides nonempty spelled

theorem near (meets : Meets fs gs w root names) (found : fs.find true (root.below names) = .ok here)
    (directory : here.node.kind = .directory)
    (included : w.includes ((root.below names).join n.path) = true) :
    ¬ w.Excluded fs (here.names.reverse ++ [n]) := by
  have passes := meets.passes_next nonempty spelled included
  cases follow : w.followLinks with
  | true =>
    have same : ((root.below names).join n.path).components =
        (w.root.below (names ++ [n])).components := by
      rw [Path.components_join, Path.components_below, Path.components_below, spelled]
      simp
    exact ((hides.links follow _ passes).respelled same).join found directory
  | false =>
    intro away
    have ⟨base, _, _, located, _⟩ := away
    rw [meets.straight follow base here located found, List.append_assoc] at away
    exact passes.kept located away

theorem child (meets : Meets fs gs w root names) (found : fs.find true (root.below names) = .ok here)
    (holds : here.Holds n node) (plain : w.followLinks = true ∨ node.kind ≠ .symlink)
    (included : w.includes ((root.below names).join n.path) = true) :
    Meets fs gs w root (names ++ [n]) := by
  have passes := meets.passes_next nonempty spelled included
  cases follow : w.followLinks with
  | true =>
    refine ⟨passes, hides.followed follow passes ?_ true, by simp [follow]⟩
    rw [Path.components_below, Path.components_below, spelled]
  | false =>
    have other : node.kind ≠ .symlink := plain.resolve_left (by simp [follow])
    have directory : here.node.kind = .directory := by
      obtain ⟨entries, own⟩ := holds.directory
      rw [own, Node.kind]
    obtain ⟨there, found', twin⟩ := (found ▸ meets.meet).ok_left
    obtain ⟨b, holds', both⟩ := twin.child hides.alike
      (hides.near nonempty spelled meets found directory included) holds
    have bare : node.kind = b.kind := Node.kind_eq (both.bare hides.alike)
    have last : root.below (names ++ [n]) = (root.below names).join n.path := Path.below_append ..
    refine ⟨passes, ?_, ?_⟩
    · rw [last, find_entry found holds other, find_entry found' holds' (bare ▸ other)]
      split
      · exact .error _
      · exact .ok both
    · intro _ base q located found''
      rw [last, find_entry found holds other] at found''
      split at found''
      · cases found''
      · cases found''
        rw [Place.names, List.reverse_cons, meets.straight follow base here located found, List.append_assoc]

end Hides

end TreeDigest.TreeWalk
