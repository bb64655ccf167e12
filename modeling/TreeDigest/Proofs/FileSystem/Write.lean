import TreeDigest.Proofs.FileSystem.Alike
namespace TreeDigest

namespace Place
variable {p q : Place} {n : Name} {names : List Name}

theorem shows?_congr (same : p.node = q.node) (names : List Name) : p.shows? names = q.shows? names := by
  induction names generalizing p q with
  | nil => simp [shows?, descend?, same]
  | cons n rest ih =>
    unfold shows? descend?
    rw [same]
    split
    · exact ih rfl
    · rfl

theorem shows?_cons (p : Place) (n : Name) (names : List Name) : p.shows? (n :: names) =
    (p.node.entries.find? (·.1 == n)).bind fun e => (Place.root e.2).shows? names := by
  unfold shows?
  rw [descend?]
  split
  · rename_i found
    rw [found]
    exact shows?_congr (p := .child p _ _) (q := .root _) rfl names
  · rename_i none
    rw [none]
    rfl

end Place

theorem Node.find?_putEntry (entries : List (Name × Node)) (n m : Name) (node : Node) :
    (putEntry n node entries).find? (·.1 == m) =
      if n = m then some (n, node) else entries.find? (·.1 == m) := by
  induction entries with
  | nil => by_cases same : n = m <;> simp [putEntry, same]
  | cons first rest ih =>
    unfold putEntry
    by_cases same : n = m
    · split <;> simp_all
    · split
      · rename_i own
        simp [own, same]
      · rw [List.find?_cons, List.find?_cons, ih, if_neg same]

theorem Node.write_cons (top node : Node) (n m : Name) (tail names : List Name) :
    (Place.root (top.write (n :: tail) node)).shows? (m :: names) =
      if n = m then
        (Place.root (write (((top.entries.find? (·.1 == n)).map (·.2)).getD .empty) tail node)).shows? names
      else (Place.root top).shows? (m :: names) := by
  rw [Place.shows?_cons, Place.shows?_cons]
  change (List.find? _ (putEntry n _ top.entries)).bind _ = _
  rw [find?_putEntry]
  split <;> rfl

theorem Place.bare_of_shows? {top : Node} {front : List Name}
    (shown : (root top).shows? front = some .empty) : top.bare = .empty := by
  cases front with
  | nil => exact Option.some.inj shown
  | cons m rest =>
    rw [shows?_cons] at shown
    obtain ⟨e, found, -⟩ := Option.bind_eq_some_iff.mp shown
    cases top with
    | directory entries => rfl
    | file content | symlink target | special => cases found

theorem Node.write_shows {top node : Node} {front names : List Name} {n : Name}
    (parent : (Place.root top).shows? front = some .empty) (apart : ¬ front ++ [n] <+: names) :
    (Place.root (top.write (front ++ [n]) node)).shows? names = (Place.root top).shows? names := by
  induction front generalizing top names with
  | nil =>
    cases names with
    | nil => exact congrArg some (Place.bare_of_shows? parent).symm
    | cons k later =>
      rw [List.nil_append, write_cons, if_neg]
      rintro rfl
      exact apart (by simp)
  | cons m rest ih =>
    cases names with
    | nil => exact congrArg some (Place.bare_of_shows? parent).symm
    | cons k later =>
      rw [List.cons_append, write_cons]
      split
      · rename_i same
        subst same
        rw [Place.shows?_cons] at parent ⊢
        obtain ⟨e, found, parent⟩ := Option.bind_eq_some_iff.mp parent
        change top.entries.find? _ = some e at found
        change _ = (top.entries.find? _).bind _
        rw [found]
        exact ih parent fun begins => apart (List.cons_prefix_cons.mpr ⟨rfl, begins⟩)
      · rfl

theorem FileSystem.write_alike {fs : FileSystem} (front : List Name) {n : Name} {node : Node}
    {distinct : node.Distinct} (parent : fs.stands? (fs.current ++ front) = some .empty) :
    (fs.write (front ++ [n]) node distinct).Alike fs (fs.current ++ front ++ [n] <+: ·) where
  current := rfl
  stands names apart := by
    unfold stands? write put
    rw [← List.append_assoc]
    exact Node.write_shows parent apart

end TreeDigest
