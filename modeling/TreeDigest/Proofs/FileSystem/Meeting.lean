import TreeDigest.Proofs.FileSystem.Alike
import TreeDigest.Proofs.FileSystem.Course
namespace TreeDigest.FileSystem
open Std

inductive Meet (R : α → β → Prop) : Except SystemError α → Except SystemError β → Prop where
  | error (e : SystemError) : Meet R (.error e) (.error e)
  | ok {a : α} {b : β} (related : R a b) : Meet R (.ok a) (.ok b)

namespace Meet
variable {R : α → β → Prop} {ours : Except SystemError α} {theirs : Except SystemError β}

theorem cases (meet : Meet R ours theirs) : (∃ e, ours = .error e ∧ theirs = .error e) ∨
    ∃ a b, ours = .ok a ∧ theirs = .ok b ∧ R a b := by
  cases meet with
  | error e => exact .inl ⟨e, rfl, rfl⟩
  | ok related => exact .inr ⟨_, _, rfl, rfl, related⟩

theorem error_left {e : SystemError} (meet : Meet R (.error e) theirs) : theirs = .error e := by
  cases meet
  rfl

theorem ok_left {a : α} (meet : Meet R (.ok a) theirs) : ∃ b, theirs = .ok b ∧ R a b := by
  cases meet with
  | ok related => exact ⟨_, rfl, related⟩

end Meet

inductive FoundTwin (fs gs : FileSystem) (away : List Name → Prop) : Found → Found → Prop where
  | place {p q : Place} (twin : Twin fs gs away p q) : FoundTwin fs gs away (.place p) (.place q)
  | link {p q : Place} {target : Path} (twin : Twin fs gs away p q) :
      FoundTwin fs gs away (.link p target) (.link q target)

variable {fs gs : FileSystem} {away : List Name → Prop} {p q here there : Place} {links : Nat}
  {segment : Bytes} {path : Path} {n : Name} {node : Node} {follow : Bool}

theorem enter_twin (alike : fs.Alike gs away) (part : Part away) (twin : Twin fs gs away p q)
    (clear : p.node.kind = .directory → ∀ n : Name, n.bytes = segment → ¬ away (p.names.reverse ++ [n])) :
    Meet (FoundTwin fs gs away) (enter p segment) (enter q segment) := by
  have bare := twin.bare alike
  unfold enter
  cases here : p.node with
  | file content | symlink target | special =>
    rw [here] at bare
    cases there : q.node with
    | file content | symlink target | special => exact .error _
    | directory others => simp [there, Node.bare] at bare
  | directory entries =>
    rw [here] at bare
    cases there : q.node with
    | file content | symlink target | special => simp [there, Node.bare] at bare
    | directory others =>
      dsimp only
      have clear := clear (by rw [here, Node.kind])
      split
      · exact .ok (.place twin)
      · split
        · exact .ok (.place (twin.parent part))
        · split
          · exact .error _
          · cases found : entries.find? (·.1.bytes == segment) with
            | none =>
              cases also : others.find? (·.1.bytes == segment) with
              | none => exact .error _
              | some e =>
                obtain ⟨n, b⟩ := e
                obtain rfl : n.bytes = segment := by simpa using List.find?_some also
                rw [find?_bytes] at found also
                have near : ¬ away (q.names.reverse ++ [n]) := twin.names ▸ clear n rfl
                obtain ⟨a, holds, -⟩ := twin.symm.child alike.symm near (by rwa [Place.Holds, there])
                rw [Place.Holds, here] at holds
                cases found.symm.trans holds
            | some e =>
              obtain ⟨n, a⟩ := e
              obtain rfl : n.bytes = segment := by simpa using List.find?_some found
              rw [find?_bytes] at found
              obtain ⟨b, holds, both⟩ := twin.child alike (clear n rfl) (by rwa [Place.Holds, here])
              rw [Place.Holds, there] at holds
              rw [find?_bytes, show others.find? (·.1 == n) = some (n, b) from holds]
              have bare := both.bare alike
              cases a with
              | symlink target =>
                obtain rfl := Node.symlink_of_bare bare rfl
                exact .ok (.link both)
              | file content | directory entries | special =>
                cases b with
                | symlink target => simp [Place.node, Node.bare] at bare
                | file content | directory entries | special => exact .ok (.place both)

-- A look-up that stays out of the part where two trees differ ends alike in both.
theorem resolve_twin {segments : List Bytes} (alike : fs.Alike gs away)
    (part : Part away) (twin : Twin fs gs away p q)
    (clear : Lookup.Clear away ⟨links, p, Path.named segments⟩) :
    Meet (Twin fs gs away) (resolve follow links p segments) (resolve follow links q segments) := by
  have next {links : Nat} {p q : Place} {segment : Bytes} {rest : List Bytes} (twin : Twin fs gs away p q)
      (clear : Lookup.Clear away ⟨links, p, Path.named (segment :: rest)⟩) :
      Meet (FoundTwin fs gs away) (enter p segment) (enter q segment) := by
    refine enter_twin alike part twin fun directory n own => ?_
    subst own
    rw [Path.named, List.filter_cons_of_pos (by simp [n.not_isTrivial])] at clear
    exact clear .refl directory
  fun_induction resolve follow links p segments generalizing q with
  | case1 links p =>
    rw [resolve]
    exact .ok twin
  | case2 links p segment rest e entered =>
    have both := next twin clear
    rw [entered] at both
    rw [resolve, both.error_left]
    exact .error e
  | case3 links p segment rest p' entered ih =>
    obtain ⟨found, other, both⟩ := (entered ▸ next twin clear).ok_left
    cases both with
    | place both =>
      rw [resolve, other]
      have onward : Onward ⟨links, p, Path.named (segment :: rest) ++ []⟩
          ⟨links, p', Path.named rest ++ []⟩ := onward_place entered
      rw [List.append_nil, List.append_nil] at onward
      exact ih both (clear.later onward)
  | case4 links p segment rest p' target entered last =>
    obtain ⟨found, other, both⟩ := (entered ▸ next twin clear).ok_left
    cases both with
    | link both =>
      rw [resolve, other]
      simp only [last, if_true]
      exact .ok both
  | case5 p segment rest p' target entered more =>
    obtain ⟨found, other, both⟩ := (entered ▸ next twin clear).ok_left
    cases both with
    | link both =>
      rw [resolve, other]
      simp only [more]
      exact .error _
  | case6 p segment rest p' target entered more links ih =>
    obtain ⟨found, other, both⟩ := (entered ▸ next twin clear).ok_left
    cases both with
    | link both =>
      rw [resolve, other]
      simp only [more]
      have onward : Onward ⟨links + 1, p, Path.named (segment :: rest) ++ []⟩
          ⟨links, if target.isAbsolute then p.top else p,
            Path.named (Path.segments target.bytes ++ rest) ++ []⟩ := onward_link entered
      rw [List.append_nil, List.append_nil] at onward
      refine ih ?_ (clear.later onward)
      split
      · exact twin.top part
      · exact twin

theorem find_twin (alike : fs.Alike gs away) (part : Part away) (clear : fs.Clear away path)
    (follow : Bool) : Meet (Twin fs gs away) (fs.find follow path) (gs.find follow path) := by
  unfold find
  split
  · exact .error _
  · split
    · exact .error _
    · split
      · exact .error _
      · cases absolute : path.isAbsolute with
        | true =>
          have started (fs : FileSystem) : fs.start? path = some (.root fs.root) := if_pos absolute
          simp only [started]
          exact resolve_twin alike part (.root part) (clear.onward _ (started fs))
        | false =>
          have started (fs : FileSystem) :
              fs.start? path = (Place.root fs.root).descend? fs.current := if_neg (by simp [absolute])
          have same := alike.stands _ (clear.current absolute)
          simp only [started, ← alike.current]
          cases left : (Place.root fs.root).descend? fs.current with
          | none =>
            cases right : (Place.root gs.root).descend? fs.current with
            | none => exact .error _
            | some q => simp [stands?, Place.shows?, left, right] at same
          | some p =>
            cases right : (Place.root gs.root).descend? fs.current with
            | none => simp [stands?, Place.shows?, left, right] at same
            | some q =>
              exact resolve_twin alike part (.of_names (clear.current absolute) left right)
                (clear.onward _ ((started fs).trans left))

theorem list_notDirectory (found : fs.find true path = .ok here) (other : here.node.kind ≠ .directory) :
    fs.list path = .error .notDirectory := by
  unfold FileSystem.list
  rw [found]
  cases own : here.node with
  | directory nodes => simp [own, Node.kind] at other
  | file content | symlink target | special => simp only [own]

section Consequences
variable (alike : fs.Alike gs away)
include alike

theorem Meet.kind (meet : Meet (Twin fs gs away) (fs.find follow path) (gs.find follow path)) :
    fs.kind follow path = gs.kind follow path := by
  unfold FileSystem.kind
  obtain ⟨e, left, right⟩ | ⟨p, q, left, right, twin⟩ := meet.cases
  · rw [left, right]
  · rw [left, right]
    exact congrArg Except.ok (Node.kind_eq (twin.bare alike))

theorem Meet.target? (meet : Meet (Twin fs gs away) (fs.find false path) (gs.find false path)) :
    fs.target? path = gs.target? path := by
  unfold FileSystem.target?
  obtain ⟨e, left, right⟩ | ⟨p, q, left, right, twin⟩ := meet.cases
  · rw [left, right]
  · have bare := twin.bare alike
    rw [left, right]
    cases here : p.node <;> cases there : q.node <;> simp_all [Node.bare]

end Consequences

theorem Meet.same {other : Path} (one : Meet (Twin fs gs away) (fs.find true path) (gs.find true path))
    (two : Meet (Twin fs gs away) (fs.find true other) (gs.find true other)) :
    fs.same path other = gs.same path other := by
  unfold FileSystem.same
  obtain ⟨e, left, right⟩ | ⟨p, q, left, right, twin⟩ := one.cases
  · rw [left, right]
  · rw [left, right]
    obtain ⟨e, left, right⟩ | ⟨p', q', left, right, twin'⟩ := two.cases
    · rw [left, right]
    · simp only [left, right, twin.names, twin'.names]

theorem Twin.holds_kind (twin : Twin fs gs away p q) (alike : fs.Alike gs away)
    (near : ¬ away (p.names.reverse ++ [n])) {kind : Kind} :
    (∃ a, p.Holds n a ∧ a.kind = kind) ↔ ∃ b, q.Holds n b ∧ b.kind = kind := by
  have one {fs gs : FileSystem} {p q : Place} (twin : Twin fs gs away p q) (alike : fs.Alike gs away)
      (near : ¬ away (p.names.reverse ++ [n])) (here : ∃ a, p.Holds n a ∧ a.kind = kind) :
      ∃ b, q.Holds n b ∧ b.kind = kind := by
    obtain ⟨a, holds, rfl⟩ := here
    obtain ⟨b, also, both⟩ := twin.child alike near holds
    exact ⟨b, also, (Node.kind_eq (both.bare alike)).symm⟩
  constructor
  · exact one twin alike near
  · exact one twin.symm alike.symm (twin.names ▸ near)

theorem Meet.list (alike : fs.Alike gs away)
    (meet : Meet (Twin fs gs away) (fs.find true path) (gs.find true path)) (keep : Name → Bool)
    (near : ∀ here n, fs.find true path = .ok here → here.node.kind = .directory → keep n = true →
      ¬ away (here.names.reverse ++ [n])) :
    Meet (fun entries others => entries.filter (keep ·.1) = others.filter (keep ·.1))
      (fs.list path) (gs.list path) := by
  obtain ⟨e, left, right⟩ | ⟨p, q, left, right, twin⟩ := meet.cases
  · unfold FileSystem.list
    rw [left, right]
    exact .error _
  · have bare := Node.kind_eq (twin.bare alike)
    by_cases directory : p.node.kind = .directory
    · obtain ⟨entries, listed⟩ := list_directory left directory
      obtain ⟨others, listed'⟩ := list_directory right (bare ▸ directory)
      rw [listed, listed']
      refine .ok (ascending_unique ((list_ascending listed).filter _)
        ((list_ascending listed').filter _) ?_)
      rintro ⟨n, kind⟩
      rw [List.mem_filter, List.mem_filter, list_mem left listed, list_mem right listed']
      apply and_congr_left
      intro kept
      exact twin.holds_kind alike (near p n left directory kept)
    · rw [list_notDirectory left directory, list_notDirectory right (bare ▸ directory)]
      exact .error _

-- An entry that is no link is found in its directory, unless a name on the way to it is too long.
theorem find_entry (found : fs.find true path = .ok here) (holds : here.Holds n node)
    (plain : node.kind ≠ .symlink) : fs.find follow (path.join n.path) =
      if longestPath < (path.join n.path).bytes.length ∨ longestName < n.bytes.length then
        .error .nameTooLong
      else .ok (.child here n node) := by
  obtain ⟨nonempty, zero, -⟩ := find_ok found
  obtain ⟨left, next⟩ := find_join found
  by_cases long : longestPath < (path.join n.path).bytes.length
  · rw [if_pos (.inl long)]
    exact find_tooLong (by rwa [Path.zero_mem_join n nonempty]) long
  · rw [next follow n (Nat.le_of_not_lt long), resolve]
    by_cases tooLong : longestName < n.bytes.length
    · obtain ⟨entries, directory⟩ := holds.directory
      rw [if_pos (.inr tooLong)]
      simp [enter, directory, n.not_isTrivial, n.valid.2.2.2.2, tooLong]
    · rw [if_neg (by simp [long, tooLong]), enter_name holds (Nat.le_of_not_lt tooLong)]
      cases node with
      | symlink target => exact absurd rfl plain
      | file content | directory entries | special => simp [resolve]

def Held (fs : FileSystem) (p : Place) : Prop := Twin fs fs (fun _ => False) p p

theorem held_start (started : fs.start? path = some p) : fs.Held p := by
  unfold start? at started
  split at started
  · cases started
    exact ⟨id, rfl, rfl⟩
  · exact .of_names id started started

theorem resolve_held {segments : List Bytes} (held : fs.Held p)
    (resolved : resolve follow links p segments = .ok q) : fs.Held q := by
  have met : Meet (Twin fs fs fun _ => False) (resolve follow links p segments)
      (resolve follow links p segments) := resolve_twin ⟨rfl, fun _ _ => rfl⟩ ⟨nofun, id⟩ held fun _ _ => id
  obtain ⟨other, same, twin⟩ := (resolved ▸ met).ok_left
  cases same
  exact twin

theorem find_held (found : fs.find follow path = .ok here) : fs.Held here := by
  obtain ⟨-, -, -, p, started, resolved⟩ := find_ok found
  exact resolve_held (held_start started) resolved

theorem Held.unique (held : fs.Held p) (also : fs.Held q) (same : p.names = q.names) : p = q := by
  have left := held.left
  rw [same, also.left] at left
  exact (Option.some.inj left).symm

theorem same_ok {other : Path} (same : fs.same path other = true) :
    ∃ here, fs.find true path = .ok here ∧ fs.find true other = .ok here := by
  unfold FileSystem.same at same
  split at same
  · rename_i one two found also
    cases (find_held found).unique (find_held also) (by simpa using same)
    exact ⟨one, found, also⟩
  · cases same

theorem list_congr {other : Path} (found : fs.find true path = .ok here)
    (also : fs.find true other = .ok here) : fs.list path = fs.list other := by
  unfold FileSystem.list
  rw [found, also]

theorem Held.parent_directory (held : fs.Held p) (directory : p.node.kind = .directory) :
    p.parent.node.kind = .directory := by
  cases p with
  | root node => exact directory
  | child above n node =>
    have found := held.left
    rw [Place.names, List.reverse_cons] at found
    obtain ⟨here, other, -, holds, same⟩ := Place.descend?_concat.mp found
    cases same
    obtain ⟨entries, own⟩ := holds.directory
    rw [Place.parent, own, Node.kind]

theorem resolve_unnamed (held : fs.Held p) (resolved : resolve follow links p [segment] = .ok q)
    (unnamed : Path.isTrivial segment = true ∨ segment = [Path.dot, Path.dot]) :
    q.node.kind = .directory := by
  cases own : p.node with
  | file content | symlink target | special => simp [resolve, enter, own] at resolved
  | directory entries =>
    have directory : p.node.kind = .directory := by rw [own, Node.kind]
    by_cases skipped : Path.isTrivial segment = true
    · have stays : q = p := by simpa [resolve, enter, own, skipped, eq_comm] using resolved
      rwa [stays]
    · have above : segment = [Path.dot, Path.dot] := unnamed.resolve_left skipped
      have up : q = p.parent := by
        subst above
        simpa [resolve, enter, own, skipped, eq_comm] using resolved
      rw [up]
      exact held.parent_directory directory

theorem named_of_find (found : fs.find false path = .ok here) (other : here.node.kind ≠ .directory) :
    ∃ last, path.fileName? = some last := by
  obtain ⟨-, -, -, first, started, resolved⟩ := find_ok found
  rcases List.eq_nil_or_concat (Path.segments path.bytes) with none | ⟨front, last, ends⟩
  · exact absurd none (Path.segments_ne_nil _)
  · rw [List.concat_eq_append] at ends
    rw [ends] at resolved
    cases before : resolve true mostLinks first front with
    | error e => cases (resolve_append_error before (List.cons_ne_nil _ [])).symm.trans resolved
    | ok there =>
      obtain ⟨left, after⟩ := resolve_append before
      rw [after false _ (List.cons_ne_nil _ [])] at resolved
      have named := mt (resolve_unnamed (resolve_held (held_start started) before) resolved) other
      rw [not_or, Bool.not_eq_true] at named
      exact ⟨last, Path.fileName?_snoc ends named.1 named.2⟩

end TreeDigest.FileSystem
