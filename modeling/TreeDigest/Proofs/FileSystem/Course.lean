import Mathlib.Logic.Relation
import TreeDigest.Proofs.Path.Spelling
namespace TreeDigest.FileSystem

structure Lookup where
  links : Nat
  place : Place
  ahead : List Bytes

inductive Goes : Lookup → Lookup → Prop where
  | place {links : Nat} {p q : Place} {segment : Bytes} {rest : List Bytes}
      (entered : enter p segment = .ok (.place q)) :
      Goes ⟨links, p, segment :: rest⟩ ⟨links, q, rest⟩
  | link {links : Nat} {p q : Place} {segment : Bytes} {rest : List Bytes} {target : Path}
      (entered : enter p segment = .ok (.link q target)) :
      Goes ⟨links + 1, p, segment :: rest⟩
        ⟨links, if target.isAbsolute then p.top else p, target.steps ++ rest⟩

abbrev Onward : Lookup → Lookup → Prop := Relation.ReflTransGen Goes

-- A look-up that stays out of a part of the tree: no name that it looks up in a directory on its way, there
-- or not, belongs to that part.
def Lookup.Clear (away : List Name → Prop) (s : Lookup) : Prop :=
  ∀ {links : Nat} {p : Place} {n : Name} {rest : List Bytes},
    Onward s ⟨links, p, n.bytes :: rest⟩ → p.node.kind = .directory → ¬ away (p.names.reverse ++ [n])

structure Clear (fs : FileSystem) (away : List Name → Prop) (path : Path) : Prop where
  current : path.isAbsolute = false → ¬ away fs.current
  onward : ∀ first, fs.start? path = some first → Lookup.Clear away ⟨mostLinks, first, path.steps⟩

variable {fs : FileSystem} {away : List Name → Prop} {p q : Place} {n : Name}

theorem Lookup.Clear.later {s t : Lookup} (clear : s.Clear away) (onward : Onward s t) : t.Clear away :=
  fun more directory => clear (onward.trans more) directory

theorem Clear.respelled {path other : Path} (clear : fs.Clear away path)
    (same : other.components = path.components) : fs.Clear away other := by
  obtain ⟨steps, absolute⟩ := Path.steps_congr same
  have started : fs.start? other = fs.start? path := by rw [start?, start?, absolute]
  exact ⟨absolute ▸ clear.current, started ▸ steps ▸ clear.onward⟩

section Steps
variable {links : Nat} {segment : Bytes} {rest back : List Bytes} {target path : Path} {here : Place}

theorem enter_trivial {found : Found} (entered : enter p segment = .ok found)
    (skipped : Path.isTrivial segment = true) : found = .place p := by
  unfold enter at entered
  split at entered
  · rw [if_pos skipped] at entered
    exact (Except.ok.inj entered).symm
  · cases entered

theorem onward_place (entered : enter p segment = .ok (.place q)) :
    Onward ⟨links, p, Path.named (segment :: rest) ++ back⟩ ⟨links, q, Path.named rest ++ back⟩ := by
  cases skipped : Path.isTrivial segment with
  | true =>
    cases enter_trivial entered skipped
    rw [Path.named, List.filter_cons_of_neg (by simp [skipped])]
    exact .refl
  | false =>
    rw [Path.named, List.filter_cons_of_pos (by simp [skipped])]
    exact .single (.place entered)

theorem onward_link (entered : enter p segment = .ok (.link q target)) :
    Onward ⟨links + 1, p, Path.named (segment :: rest) ++ back⟩
      ⟨links, if target.isAbsolute then p.top else p,
        Path.named (Path.segments target.bytes ++ rest) ++ back⟩ := by
  have proper : Path.isTrivial segment = false := by
    cases skipped : Path.isTrivial segment with
    | false => rfl
    | true => cases enter_trivial entered skipped
  rw [Path.named_append, List.append_assoc, Path.named, List.filter_cons_of_pos (by simp [proper])]
  exact .single (.link entered)

theorem resolve_onward {segments : List Bytes} (resolved : resolve true links p segments = .ok here) :
    ∃ left, ∀ back, Onward ⟨links, p, Path.named segments ++ back⟩ ⟨left, here, back⟩ := by
  fun_induction resolve true links p segments with
  | case1 links p => cases resolved; exact ⟨links, fun _ => .refl⟩
  | case2 => cases resolved
  | case3 links p segment rest next entered ih =>
    obtain ⟨left, onward⟩ := ih resolved
    exact ⟨left, fun back => (onward_place entered).trans (onward back)⟩
  | case4 links p segment rest next target entered last => simp at last
  | case5 => cases resolved
  | case6 p segment rest next target entered more links ih =>
    obtain ⟨left, onward⟩ := ih resolved
    exact ⟨left, fun back => (onward_link entered).trans (onward back)⟩

theorem goes_unique : Relator.RightUnique Goes := by
  intro s t u one two
  cases one with
  | place entered =>
    cases two with
    | place also => cases entered.symm.trans also; rfl
    | link also => cases entered.symm.trans also
  | link entered =>
    cases two with
    | place also => cases entered.symm.trans also
    | link also => cases entered.symm.trans also; rfl

theorem onward_end {left other : Nat} {there : Place} {s : Lookup} (one : Onward s ⟨left, here, []⟩)
    (two : Onward s ⟨other, there, []⟩) : here = there := by
  have stays {left : Nat} {here : Place} {t : Lookup} (on : Onward ⟨left, here, []⟩ t) :
      t = ⟨left, here, []⟩ := by
    rcases on.cases_head with same | ⟨u, goes, -⟩
    · exact same.symm
    · cases goes
  rcases Relation.ReflTransGen.total_of_right_unique goes_unique one two with on | on
  · cases stays on; rfl
  · cases stays on; rfl

theorem find_respelled {other : Path} {there : Place} (found : fs.find true path = .ok here)
    (also : fs.find true other = .ok there) (same : other.components = path.components) : there = here := by
  obtain ⟨steps, absolute⟩ := Path.steps_congr same
  obtain ⟨-, -, -, first, started, resolved⟩ := find_ok found
  obtain ⟨-, -, -, second, started', resolved'⟩ := find_ok also
  rw [start?, absolute] at started'
  cases started.symm.trans started'
  obtain ⟨left, one⟩ := resolve_onward resolved
  obtain ⟨right, two⟩ := resolve_onward resolved'
  have two := two []
  rw [List.append_nil, show Path.named (Path.segments other.bytes) = path.steps from steps] at two
  have one := one []
  rw [List.append_nil] at one
  exact onward_end two one

theorem Clear.join (clear : fs.Clear away (path.join n.path)) (found : fs.find true path = .ok here)
    (directory : here.node.kind = .directory) : ¬ away (here.names.reverse ++ [n]) := by
  obtain ⟨nonempty, -, -, first, started, resolved⟩ := find_ok found
  obtain ⟨left, onward⟩ := resolve_onward resolved
  have onward := onward [n.bytes]
  rw [show Path.named (Path.segments path.bytes) = path.steps from rfl,
    show [n.bytes] = [n].map (·.bytes) from rfl, ← Path.steps_below] at onward
  exact clear.onward first ((start?_join nonempty).trans started) onward directory

namespace Lookup

theorem clear_nil : Lookup.Clear away ⟨links, p, []⟩ := by
  intro links p n rest onward
  rcases onward.cases_head with same | ⟨t, goes, -⟩
  · cases same
  · cases goes

theorem clear_of_other (other : p.node.kind ≠ .directory) : Lookup.Clear away ⟨links, p, rest⟩ := by
  have stuck {segment : Bytes} {found : Found} : enter p segment ≠ .ok found := by
    intro entered
    unfold enter at entered
    cases own : p.node <;> simp_all [Node.kind]
  intro links p n rest onward directory
  rcases onward.cases_head with same | ⟨t, goes, -⟩
  · cases same
    exact absurd directory other
  · cases goes with
    | place entered => exact absurd entered stuck
    | link entered => exact absurd entered stuck

theorem clear_cons (near : p.node.kind = .directory → ¬ away (p.names.reverse ++ [n]))
    (place : ∀ q, enter p n.bytes = .ok (.place q) → Lookup.Clear away ⟨links, q, rest⟩)
    (link : ∀ left q target, links = left + 1 → enter p n.bytes = .ok (.link q target) →
      Lookup.Clear away ⟨left, if target.isAbsolute then p.top else p, target.steps ++ rest⟩) :
    Lookup.Clear away ⟨links, p, n.bytes :: rest⟩ := by
  intro left here m later onward
  rcases onward.cases_head with same | ⟨t, goes, more⟩
  · obtain ⟨bytes, valid⟩ := m
    cases same
    exact near
  · cases goes with
    | place entered => exact place _ entered more
    | link entered => exact link _ _ _ rfl entered more

end Lookup

end Steps
end TreeDigest.FileSystem
