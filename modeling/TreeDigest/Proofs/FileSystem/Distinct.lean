import TreeDigest.OrderedMap
import TreeDigest.Proofs.Path.Join
import TreeDigest.Proofs.Sorting
namespace TreeDigest
open Std

namespace Name

instance : TransCmp Name.compare where
  eq_swap {m n} := @OrientedCmp.eq_swap _ Path.compareBytes _ m.bytes n.bytes
  isLE_trans {l m n} := @TransCmp.isLE_trans _ Path.compareBytes _ l.bytes m.bytes n.bytes

theorem eq_of_compare {m n : Name} (same : m.compare n = .eq) : m = n := by
  have bytes : m.bytes = n.bytes := @LawfulEqCmp.eq_of_compare _ Path.compareBytes _ _ _ same
  cases m
  cases n
  cases bytes
  rfl

instance : LawfulEqCmp Name.compare where
  compare_self := ReflCmp.compare_self
  eq_of_compare := eq_of_compare

theorem ne_of_lt {m n : Name} (before : m.compare n = .lt) : m ≠ n := by
  rintro rfl
  cases (@ReflCmp.compare_self _ Name.compare _ m).symm.trans before

end Name

namespace Node

theorem Distinct.of_ascending {entries : List (Name × Node)}
    (names : OrderedMap.Ascending Name.compare entries) (below : ∀ e ∈ entries, e.2.Distinct) :
    (Node.directory entries).Distinct :=
  .directory (List.pairwise_map.mpr (names.imp Name.ne_of_lt)) below

end Node

def Place.Distinct : Place → Prop
  | .root node => node.Distinct
  | .child parent _ node => parent.Distinct ∧ node.Distinct

namespace Place
variable {p q : Place}

theorem Distinct.node (distinct : p.Distinct) : p.node.Distinct := by
  cases p with
  | root node => exact distinct
  | child parent name node => exact distinct.2

theorem Distinct.parent (distinct : p.Distinct) : p.parent.Distinct := by
  cases p with
  | root node => exact distinct
  | child parent name node => exact distinct.1

theorem Distinct.top (distinct : p.Distinct) : p.top.Distinct := by
  induction p with
  | root node => exact distinct
  | child parent name node ih => exact ih distinct.1

theorem Distinct.child {e : Name × Node} (distinct : p.Distinct) (member : e ∈ p.node.entries) :
    (Place.child p e.1 e.2).Distinct := by
  refine ⟨distinct, ?_⟩
  cases node : p.node with
  | directory entries =>
    have own := distinct.node
    rw [node] at own member
    cases own with
    | directory names below => exact below e member
  | file content | symlink target | special => simp [node, Node.entries] at member

theorem Distinct.descend {names : List Name} (distinct : p.Distinct)
    (found : p.descend? names = some q) : q.Distinct := by
  induction names generalizing p with
  | nil => cases found; exact distinct
  | cons n rest ih =>
    unfold descend? at found
    split at found
    · rename_i e
      exact ih (distinct.child (List.mem_of_find?_eq_some e)) found
    · cases found

end Place

namespace FileSystem
variable {fs : FileSystem} {follow : Bool} {p q : Place} {path : Path}

theorem enter_distinct {segment : Bytes} {found : Found} (distinct : p.Distinct)
    (entered : enter p segment = .ok found) :
    match found with
    | .place q => q.Distinct
    | .link q _ => q.Distinct := by
  unfold enter at entered
  split at entered
  · rename_i entries node
    split at entered
    · cases entered; exact distinct
    · split at entered
      · cases entered; exact distinct.parent
      · split at entered
        · cases entered
        · split at entered
          · cases entered
          · rename_i n node' found
            have member : (n, node') ∈ p.node.entries := by
              rw [node]
              exact List.mem_of_find?_eq_some found
            split at entered
            · cases entered; exact distinct.child member
            · cases entered; exact distinct.child member
  · cases entered

theorem resolve_distinct {links : Nat} {segments : List Bytes} (distinct : p.Distinct)
    (resolved : resolve follow links p segments = .ok q) : q.Distinct := by
  fun_induction resolve follow links p segments with
  | case1 => cases resolved; exact distinct
  | case2 => cases resolved
  | case3 links p segment rest next entered ih => exact ih (enter_distinct distinct entered) resolved
  | case4 links p segment rest next target entered last =>
    cases resolved
    exact enter_distinct distinct entered
  | case5 => cases resolved
  | case6 p segment rest next target entered more links ih =>
    refine ih ?_ resolved
    split
    · exact distinct.top
    · exact distinct

theorem find_distinct (found : fs.find follow path = .ok p) : p.Distinct := by
  unfold find at found
  split at found
  · cases found
  · split at found
    · cases found
    · split at found
      · cases found
      · split at found
        · cases found
        · rename_i first started
          refine resolve_distinct ?_ found
          unfold start? at started
          split at started
          · cases started; exact fs.distinct
          · exact Place.Distinct.descend (p := .root fs.root) fs.distinct started

theorem list_ascending {entries : List (Name × Kind)} (listed : fs.list path = .ok entries) :
    OrderedMap.Ascending Name.compare entries := by
  unfold list at listed
  split at listed
  · cases listed
  · rename_i place found
    split at listed
    · rename_i nodes node
      cases listed
      have own := (find_distinct found).node
      rw [node] at own
      cases own with
      | directory names below =>
        refine mergeSort_ascending (List.pairwise_map.mpr ?_)
        exact (List.pairwise_map.mp names).imp fun other same => other (Name.eq_of_compare same)
    · cases listed

end FileSystem
end TreeDigest
