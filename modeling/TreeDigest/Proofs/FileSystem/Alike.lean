import TreeDigest.Proofs.FileSystem.Lookup
namespace TreeDigest

def Node.bare : Node → Node
  | .directory _ => .directory []
  | node => node

namespace Node
variable {a b : Node}

@[simp] theorem bare_kind (a : Node) : a.bare.kind = a.kind := by cases a <;> rfl

theorem kind_eq (same : a.bare = b.bare) : a.kind = b.kind := by rw [← bare_kind a, same, bare_kind]

theorem symlink_of_bare {target : Path} (same : a.bare = b.bare) (own : a = .symlink target) :
    b = .symlink target := by
  subst own
  cases b <;> simp_all [bare]

end Node

namespace Place
variable {p q here : Place} {names front back : List Name} {n : Name} {node : Node}

-- What is seen under these names from here, short of what is below it.
def shows? (p : Place) (names : List Name) : Option Node := (p.descend? names).map (·.node.bare)

theorem descend?_append :
    p.descend? (front ++ back) = (p.descend? front).bind (·.descend? back) := by
  induction front generalizing p with
  | nil => rfl
  | cons n rest ih =>
    rw [List.cons_append, descend?, descend?]
    split
    · exact ih
    · rfl

theorem descend?_concat : p.descend? (names ++ [n]) = some q ↔
    ∃ here node, p.descend? names = some here ∧ here.Holds n node ∧ q = .child here n node := by
  rw [descend?_append, Option.bind_eq_some_iff]
  constructor
  · rintro ⟨here, found, last⟩
    obtain ⟨node, holds, own⟩ := descend?_cons.mp last
    exact ⟨here, node, found, holds, (Option.some.inj own).symm⟩
  · rintro ⟨here, node, found, holds, rfl⟩
    exact ⟨here, found, descend?_cons.mpr ⟨node, holds, rfl⟩⟩

theorem names_descend (found : p.descend? names = some q) : q.names = names.reverse ++ p.names := by
  induction names generalizing p with
  | nil => cases found; rfl
  | cons n rest ih =>
    obtain ⟨node, -, later⟩ := descend?_cons.mp found
    rw [ih later]
    simp [Place.names]

theorem top_descend (found : p.descend? names = some q) : q.top = p.top := by
  induction names generalizing p with
  | nil => cases found; rfl
  | cons n rest ih =>
    obtain ⟨node, -, later⟩ := descend?_cons.mp found
    exact (ih later).trans rfl

end Place

namespace FileSystem

-- A part of a tree: with each place all that is below it, and not the top. Places go by the names that
-- lead to them from there.
structure Part (away : List Name → Prop) : Prop where
  below : ∀ front back, away front → away (front ++ back)
  proper : ¬ away []

def stands? (fs : FileSystem) (names : List Name) : Option Node := (Place.root fs.root).shows? names

structure Alike (fs gs : FileSystem) (away : List Name → Prop) : Prop where
  current : fs.current = gs.current
  stands : ∀ names, ¬ away names → fs.stands? names = gs.stands? names

structure Twin (fs gs : FileSystem) (away : List Name → Prop) (p q : Place) : Prop where
  near : ¬ away p.names.reverse
  left : (Place.root fs.root).descend? p.names.reverse = some p
  right : (Place.root gs.root).descend? p.names.reverse = some q

variable {fs gs : FileSystem} {away : List Name → Prop} {p q : Place} {n : Name} {a b : Node}

theorem Alike.symm (alike : fs.Alike gs away) : gs.Alike fs away :=
  ⟨alike.current.symm, fun names near => (alike.stands names near).symm⟩

namespace Twin

theorem of_names {names : List Name} (near : ¬ away names)
    (left : (Place.root fs.root).descend? names = some p)
    (right : (Place.root gs.root).descend? names = some q) : Twin fs gs away p q := by
  have own : p.names.reverse = names := by
    rw [Place.names_descend left]
    simp [Place.names]
  exact ⟨own ▸ near, own ▸ left, own ▸ right⟩

theorem names (twin : Twin fs gs away p q) : q.names = p.names := by
  simpa [Place.names] using Place.names_descend twin.right

theorem symm (twin : Twin fs gs away p q) : Twin gs fs away q p := of_names twin.near twin.right twin.left

theorem bare (twin : Twin fs gs away p q) (alike : fs.Alike gs away) : p.node.bare = q.node.bare := by
  have same := alike.stands _ twin.near
  rw [stands?, stands?, Place.shows?, Place.shows?, twin.left, twin.right] at same
  exact Option.some.inj same

theorem root (part : Part away) : Twin fs gs away (.root fs.root) (.root gs.root) := ⟨part.proper, rfl, rfl⟩

theorem top (twin : Twin fs gs away p q) (part : Part away) : Twin fs gs away p.top q.top := by
  rw [Place.top_descend twin.left, Place.top_descend twin.right]
  exact root part

theorem parent (twin : Twin fs gs away p q) (part : Part away) : Twin fs gs away p.parent q.parent := by
  cases p with
  | root node =>
    have right := twin.right
    cases right
    exact twin
  | child above n node =>
    have left := twin.left
    have right := twin.right
    have near := twin.near
    simp only [Place.names, List.reverse_cons] at left right near
    obtain ⟨here, a, found, -, own⟩ := Place.descend?_concat.mp left
    obtain ⟨there, b, also, -, rfl⟩ := Place.descend?_concat.mp right
    cases own
    exact of_names (fun inside => near (part.below _ _ inside)) found also

theorem child (twin : Twin fs gs away p q) (alike : fs.Alike gs away)
    (near : ¬ away (p.names.reverse ++ [n])) (holds : p.Holds n a) :
    ∃ b, q.Holds n b ∧ Twin fs gs away (.child p n a) (.child q n b) := by
  have left := Place.descend?_concat.mpr ⟨p, a, twin.left, holds, rfl⟩
  have same := alike.stands _ near
  rw [stands?, stands?, Place.shows?, Place.shows?, left] at same
  obtain ⟨r, right, -⟩ := Option.map_eq_some_iff.mp same.symm
  obtain ⟨here, b, found, holds', rfl⟩ := Place.descend?_concat.mp right
  cases twin.right.symm.trans found
  exact ⟨b, holds', of_names near left right⟩

end Twin

end FileSystem
end TreeDigest
