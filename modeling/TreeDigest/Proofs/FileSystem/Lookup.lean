import TreeDigest.Proofs.FileSystem.Distinct
namespace TreeDigest

namespace Path

def below (root : Path) (names : List Name) : Path := names.foldl (fun p n => p.join n.path) root

variable (p : Path) (n : Name)

@[simp] theorem below_nil : p.below [] = p := rfl

@[simp] theorem below_cons (names : List Name) :
    p.below (n :: names) = (p.join n.path).below names := rfl

@[simp] theorem below_append (front back : List Name) :
    p.below (front ++ back) = (p.below front).below back := List.foldl_append

theorem join_nonempty : (p.join n.path).bytes ≠ [] := by
  intro empty
  have longer := p.join_name_length n
  simp [empty] at longer

variable {p}

theorem bytes_join (nonempty : p.bytes ≠ []) : (p.join n.path).bytes =
    if p.bytes.getLast? = some slash then p.bytes ++ n.bytes else p.bytes ++ slash :: n.bytes := by
  unfold join
  rw [n.path_isAbsolute]
  simp only [Bool.false_eq_true, if_false, List.isEmpty_iff, nonempty]
  split <;> rfl

theorem segments_join_name (nonempty : p.bytes ≠ []) :
    ∃ front, (segments p.bytes = front ∨ segments p.bytes = front ++ [[]]) ∧
      ∀ n : Name, segments (p.join n.path).bytes = front ++ [n.bytes] := by
  have own (n : Name) : segments n.bytes = [n.bytes] := segments_plain n.valid.2.1
  by_cases last : p.bytes.getLast? = some slash
  · obtain ⟨front, bytes⟩ : ∃ front, p.bytes = front ++ [slash] := List.getLast?_eq_some_iff.mp last
    refine ⟨segments front, .inr ?_, fun n => ?_⟩
    · rw [bytes, segments_append, segments]
    · rw [bytes_join n nonempty, if_pos last, bytes, List.append_assoc, List.singleton_append,
        segments_append, own]
  · refine ⟨segments p.bytes, .inl rfl, fun n => ?_⟩
    rw [bytes_join n nonempty, if_neg last, segments_append, own]

theorem join_isAbsolute (nonempty : p.bytes ≠ []) :
    (p.join n.path).isAbsolute = p.isAbsolute := by
  unfold isAbsolute
  rw [bytes_join n nonempty]
  split <;> simp [List.head?_append, List.head?_eq_some_head nonempty]

theorem zero_mem_join (nonempty : p.bytes ≠ []) : 0 ∈ (p.join n.path).bytes ↔ 0 ∈ p.bytes := by
  have plain := n.valid.2.2.1
  rw [bytes_join n nonempty]
  split <;> simp [plain, slash]

theorem components_below (names : List Name) :
    (p.below names).components = p.components ++ names.map fun n => .normal n.bytes := by
  induction names generalizing p with
  | nil => simp
  | cons n rest ih => simp [ih, components_join]

theorem below_injective {names others : List Name} (same : p.below names = p.below others) :
    names = others := by
  have parts := congrArg components same
  rw [components_below, components_below, List.append_cancel_left_eq] at parts
  refine List.map_inj_right ?_ |>.mp parts
  intro m n equal
  cases m
  cases n
  cases equal
  rfl

end Path

def Place.Holds (here : Place) (n : Name) (node : Node) : Prop :=
  here.node.entries.find? (·.1 == n) = some (n, node)

namespace Place
variable {here q : Place} {n : Name} {node other : Node} {entries : List (Name × Node)}

theorem Holds.directory (holds : here.Holds n node) : ∃ entries, here.node = .directory entries := by
  unfold Holds at holds
  cases own : here.node with
  | directory entries => exact ⟨entries, rfl⟩
  | file content | symlink target | special => simp [own, Node.entries] at holds

theorem Holds.unique (holds : here.Holds n node) (also : here.Holds n other) : node = other := by
  cases holds.symm.trans also
  rfl

theorem Holds.mem (holds : here.Holds n node) (directory : here.node = .directory entries) :
    (n, node) ∈ entries := by
  have found := List.mem_of_find?_eq_some holds
  rwa [directory] at found

theorem holds_of_mem (distinct : here.node.Distinct) (directory : here.node = .directory entries)
    (member : (n, node) ∈ entries) : here.Holds n node := by
  rw [directory] at distinct
  cases distinct with
  | directory names below =>
    obtain ⟨before, after, split⟩ := List.append_of_mem member
    rw [Holds, directory, Node.entries]
    refine List.find?_eq_some_iff_append.mpr ⟨by simp, before, after, split, ?_⟩
    intro e earlier
    rw [split, List.map_append, List.map_cons, List.nodup_append] at names
    have other := names.2.2 e.1 (List.mem_map_of_mem earlier) n (List.mem_cons_self ..)
    simpa using other

theorem descend?_cons {rest : List Name} :
    here.descend? (n :: rest) = some q ↔
      ∃ node, here.Holds n node ∧ (Place.child here n node).descend? rest = some q := by
  unfold Holds
  rw [descend?]
  constructor
  · intro found
    split at found
    · rename_i m node entry
      have same : m = n := by simpa using List.find?_some entry
      subst same
      exact ⟨node, entry, found⟩
    · cases found
  · rintro ⟨node, entry, found⟩
    rw [entry]
    exact found

end Place

namespace FileSystem
variable {fs : FileSystem} {follow : Bool} {links : Nat} {p q here : Place} {path : Path} {n : Name}

theorem resolve_append {front : List Bytes} (resolved : resolve true links p front = .ok here) :
    ∃ left, ∀ follow back, back ≠ [] →
      resolve follow links p (front ++ back) = resolve follow left here back := by
  fun_induction resolve true links p front with
  | case1 links p => cases resolved; exact ⟨links, fun _ _ _ => rfl⟩
  | case2 => cases resolved
  | case3 links p segment rest next entered ih =>
    obtain ⟨left, after⟩ := ih resolved
    refine ⟨left, fun follow back more => ?_⟩
    rw [← after follow back more, List.cons_append, resolve, entered]
  | case4 links p segment rest next target entered last => simp at last
  | case5 => cases resolved
  | case6 p segment rest next target entered more links ih =>
    obtain ⟨left, after⟩ := ih resolved
    refine ⟨left, fun follow back nonempty => ?_⟩
    rw [← after follow back nonempty, List.cons_append, resolve, entered]
    simp [nonempty]

theorem resolve_append_error {front back : List Bytes} {e : SystemError}
    (failed : resolve true links p front = .error e) (more : back ≠ []) :
    resolve follow links p (front ++ back) = .error e := by
  fun_induction resolve true links p front with
  | case1 => cases failed
  | case2 links p segment rest error entered =>
    cases failed
    rw [List.cons_append, resolve, entered]
  | case3 links p segment rest next entered ih =>
    rw [List.cons_append, resolve, entered]
    exact ih failed
  | case4 => cases failed
  | case5 p segment rest next target entered last =>
    cases failed
    rw [List.cons_append, resolve, entered]
    simp [more]
  | case6 p segment rest next target entered last links ih =>
    rw [List.cons_append, resolve, entered]
    simpa [more] using ih failed

theorem find?_bytes (entries : List (Name × Node)) :
    entries.find? (·.1.bytes == n.bytes) = entries.find? (·.1 == n) := by
  congr 1
  funext ⟨⟨bytes, valid⟩, node⟩
  rw [Bool.eq_iff_iff, beq_iff_eq, beq_iff_eq]
  exact ⟨fun same => by cases n; cases same; rfl, fun same => by rw [← same]⟩

theorem enter_name {node : Node} (holds : here.Holds n node) (short : n.bytes.length ≤ longestName) :
    enter here n.bytes = .ok (match node with
      | .symlink target => .link (.child here n node) target
      | _ => .place (.child here n node)) := by
  obtain ⟨entries, directory⟩ := holds.directory
  rw [Place.Holds, directory, Node.entries] at holds
  unfold enter
  rw [directory]
  simp only [n.not_isTrivial, n.valid.2.2.2.2, Nat.not_lt.mpr short, find?_bytes, holds]
  cases node <;> rfl

theorem enter_inv {found : Found} (entered : enter here n.bytes = .ok found) :
    ∃ node, here.Holds n node ∧ n.bytes.length ≤ longestName := by
  unfold enter at entered
  split at entered
  · rename_i entries directory
    simp only [n.not_isTrivial, n.valid.2.2.2.2, find?_bytes] at entered
    split at entered
    · rename_i trivial; cases trivial
    · split at entered
      · rename_i parent; cases parent
      · split at entered
        · cases entered
        · rename_i short
          split at entered
          · cases entered
          · rename_i m node entry
            have same : m = n := by simpa using List.find?_some entry
            subst same
            exact ⟨node, by rw [Place.Holds, directory]; exact entry, Nat.le_of_not_lt short⟩
  · cases entered

theorem resolve_name (resolved : resolve follow links here [n.bytes] = .ok q) :
    ∃ node, here.Holds n node ∧ (follow = false ∨ node.kind ≠ .symlink → q = .child here n node) := by
  cases entered : enter here n.bytes with
  | error e => rw [resolve, entered] at resolved; cases resolved
  | ok found =>
    obtain ⟨node, holds, short⟩ := enter_inv entered
    refine ⟨node, holds, fun plain => ?_⟩
    rw [resolve, enter_name holds short] at resolved
    cases node with
    | symlink target =>
      have unfollowed : follow = false := by simpa [Node.kind] using plain
      simpa [unfollowed, eq_comm] using resolved
    | file content | directory entries | special => simpa [resolve, eq_comm] using resolved

theorem start?_join (nonempty : path.bytes ≠ []) : fs.start? (path.join n.path) = fs.start? path := by
  unfold start?
  rw [Path.join_isAbsolute n nonempty]

theorem find_ok (found : fs.find follow path = .ok q) :
    path.bytes ≠ [] ∧ 0 ∉ path.bytes ∧ path.bytes.length ≤ longestPath ∧
      ∃ p, fs.start? path = some p ∧ resolve follow mostLinks p (Path.segments path.bytes) = .ok q := by
  have short := find_length found
  unfold find at found
  split at found
  · cases found
  · rename_i plain
    split at found
    · cases found
    · rename_i nonempty
      split at found
      · cases found
      · split at found
        · cases found
        · rename_i p started
          refine ⟨?_, by simpa using plain, short, p, started, found⟩
          simpa [Path.isEmpty] using nonempty

theorem find_eq {p : Place} (nonempty : path.bytes ≠ []) (plain : 0 ∉ path.bytes)
    (short : path.bytes.length ≤ longestPath) (started : fs.start? path = some p) :
    fs.find follow path = resolve follow mostLinks p (Path.segments path.bytes) := by
  unfold find
  simp [plain, Path.isEmpty, nonempty, Nat.not_lt.mpr short, started]

theorem find_tooLong (plain : 0 ∉ path.bytes) (long : longestPath < path.bytes.length) :
    fs.find follow path = .error .nameTooLong := by
  have nonempty : path.bytes ≠ [] := fun empty => by simp [empty] at long
  unfold find
  simp [plain, Path.isEmpty, nonempty, long]

theorem kind_ok (found : fs.find follow path = .ok here) : fs.kind follow path = .ok here.node.kind := by
  simp [kind, found, Except.map]

theorem kind_inv {kind : Kind} (own : fs.kind follow path = .ok kind) :
    ∃ here, fs.find follow path = .ok here ∧ here.node.kind = kind := by
  cases found : fs.find follow path with
  | error e => simp [FileSystem.kind, found, Except.map] at own
  | ok here => exact ⟨here, rfl, Except.ok.inj ((kind_ok found).symm.trans own)⟩

theorem nonempty_of_kind {kind : Kind} (own : fs.kind follow path = .ok kind) : path.bytes ≠ [] := by
  obtain ⟨here, found, -⟩ := kind_inv own
  exact (find_ok found).1

theorem resolve_empty (resolved : resolve follow links p [[]] = .ok q) : q = p := by
  unfold resolve enter at resolved
  split at resolved
  · cases resolved
  · rename_i entered
    split at entered <;> simp_all [Path.isTrivial, resolve]
  · rename_i entered
    split at entered <;> simp_all [Path.isTrivial]

theorem resolve_trivial {segments : List Bytes} (directory : p.node.kind = .directory)
    (skipped : ∀ segment ∈ segments, Path.isTrivial segment = true) :
    resolve follow links p segments = .ok p := by
  induction segments with
  | nil => rw [resolve]
  | cons segment rest ih =>
    have stays : enter p segment = .ok (.place p) := by
      unfold enter
      cases node : p.node with
      | directory entries => simp [skipped segment (List.mem_cons_self ..)]
      | file content | symlink target | special => simp [node, Node.kind] at directory
    rw [resolve, stays]
    exact ih fun segment member => skipped segment (List.mem_cons_of_mem _ member)

theorem find_join (found : fs.find true path = .ok here) :
    ∃ left, ∀ (follow : Bool) (n : Name), (path.join n.path).bytes.length ≤ longestPath →
      fs.find follow (path.join n.path) = resolve follow left here [n.bytes] := by
  obtain ⟨nonempty, plain, -, p, started, resolved⟩ := find_ok found
  obtain ⟨front, same, joined⟩ := Path.segments_join_name nonempty
  obtain ⟨left, after⟩ : ∃ left, ∀ (follow : Bool) (n : Name),
      resolve follow mostLinks p (front ++ [n.bytes]) = resolve follow left here [n.bytes] := by
    rcases same with same | same
    · rw [same] at resolved
      obtain ⟨left, after⟩ := resolve_append resolved
      exact ⟨left, fun follow n => after follow _ (List.cons_ne_nil _ [])⟩
    · rw [same] at resolved
      cases first : resolve true mostLinks p front with
      | error e => cases (resolve_append_error first (List.cons_ne_nil _ [])).symm.trans resolved
      | ok before =>
        obtain ⟨left, after⟩ := resolve_append first
        have still := resolve_empty ((after true _ (List.cons_ne_nil _ [])).symm.trans resolved)
        subst still
        exact ⟨left, fun follow n => after follow _ (List.cons_ne_nil _ [])⟩
  refine ⟨left, fun follow n short => ?_⟩
  rw [find_eq (Path.join_nonempty path n) (by rwa [Path.zero_mem_join n nonempty]) short
    ((start?_join nonempty).trans started), joined, after]

theorem find_parent (nonempty : path.bytes ≠ []) (found : fs.find follow (path.join n.path) = .ok q) :
    ∃ here, fs.find true path = .ok here := by
  obtain ⟨-, plain, short, p, started, resolved⟩ := find_ok found
  rw [Path.zero_mem_join n nonempty] at plain
  rw [start?_join nonempty] at started
  have shorter := path.join_name_length n
  rw [find_eq nonempty plain (by omega) started]
  obtain ⟨front, same, joined⟩ := Path.segments_join_name nonempty
  rw [joined] at resolved
  cases first : resolve true mostLinks p front with
  | error e => cases (resolve_append_error first (List.cons_ne_nil _ [])).symm.trans resolved
  | ok here =>
    rcases same with same | same
    · exact ⟨here, by rw [same, first]⟩
    · obtain ⟨left, after⟩ := resolve_append first
      obtain ⟨node, holds, -⟩ := resolve_name ((after _ _ (List.cons_ne_nil _ [])).symm.trans resolved)
      obtain ⟨entries, directory⟩ := holds.directory
      refine ⟨here, ?_⟩
      rw [same, after true _ (List.cons_ne_nil _ []), resolve, enter, directory]
      simp [Path.isTrivial, resolve]

theorem find_child (found : fs.find true path = .ok here)
    (also : fs.find follow (path.join n.path) = .ok q) :
    ∃ node, here.Holds n node ∧ (follow = false ∨ node.kind ≠ .symlink → q = .child here n node) := by
  obtain ⟨left, next⟩ := find_join found
  rw [next follow n (find_length also)] at also
  exact resolve_name also

theorem find_below {names : List Name} (nonempty : path.bytes ≠ [])
    (found : fs.find true (path.below names) = .ok q) : ∃ here, fs.find true path = .ok here := by
  induction names generalizing path with
  | nil => exact ⟨q, found⟩
  | cons n rest ih =>
    obtain ⟨there, found⟩ := ih (path.join_nonempty n) found
    exact find_parent nonempty found

theorem enter_link {segment : Bytes} {target : Path} (entered : enter p segment = .ok (.link q target)) :
    q.node = .symlink target := by
  unfold enter at entered
  split at entered
  · split at entered
    · cases entered
    · split at entered
      · cases entered
      · split at entered
        · cases entered
        · split at entered
          · cases entered
          · split at entered
            · cases entered; rfl
            · cases entered
  · cases entered

-- Where the last link is not followed, a look-up stops at it, and otherwise leads to the same place.
theorem resolve_unfollowed {segments : List Bytes} (resolved : resolve true links p segments = .ok q) :
    ∃ r, resolve false links p segments = .ok r ∧ (r.node.kind ≠ .symlink → r = q) := by
  fun_induction resolve true links p segments with
  | case1 links p => cases resolved; exact ⟨_, by rw [resolve], fun _ => rfl⟩
  | case2 => cases resolved
  | case3 links p segment rest next entered ih =>
    rw [resolve, entered]
    exact ih resolved
  | case4 links p segment rest next target entered last => simp at last
  | case5 => cases resolved
  | case6 p segment rest next target entered more links ih =>
    rw [resolve, entered]
    cases rest with
    | nil => exact ⟨next, by simp, fun other => absurd (by rw [enter_link entered, Node.kind]) other⟩
    | cons second rest => simpa using ih resolved

theorem find_unfollowed (found : fs.find true path = .ok q) :
    ∃ r, fs.find false path = .ok r ∧ (r.node.kind ≠ .symlink → r = q) := by
  obtain ⟨nonempty, plain, short, p, started, resolved⟩ := find_ok found
  rw [find_eq nonempty plain short started]
  exact resolve_unfollowed resolved

theorem list_tooLong (plain : 0 ∉ path.bytes) (long : longestPath < path.bytes.length) :
    fs.list path = .error .nameTooLong := by
  unfold list
  rw [find_tooLong plain long]

theorem list_ok {entries : List (Name × Kind)} (listed : fs.list path = .ok entries) :
    ∃ here nodes, fs.find true path = .ok here ∧ here.node = .directory nodes ∧
      entries.Perm (nodes.map fun e => (e.1, e.2.kind)) := by
  unfold list at listed
  split at listed
  · cases listed
  · rename_i here found
    split at listed
    · rename_i nodes directory
      cases listed
      exact ⟨here, nodes, found, directory, List.mergeSort_perm _ _⟩
    · cases listed

theorem list_eq {nodes : List (Name × Node)} (found : fs.find true path = .ok here)
    (directory : here.node = .directory nodes)
    (ascending : nodes.Pairwise fun a b => Name.compare a.1 b.1 = .lt) :
    fs.list path = .ok (nodes.map fun e => (e.1, e.2.kind)) := by
  have sorted : ((nodes.map fun e => (e.1, e.2.kind)).mergeSort fun a b =>
      (Name.compare a.1 b.1).isLE) = nodes.map fun e => (e.1, e.2.kind) :=
    mergeSort_eq (List.pairwise_map.mpr ascending) (.refl _)
  unfold list
  simp only [found, directory, sorted]

theorem list_mem (found : fs.find true path = .ok here)
    {entries : List (Name × Kind)} (listed : fs.list path = .ok entries) {kind : Kind} :
    (n, kind) ∈ entries ↔ ∃ node, here.Holds n node ∧ node.kind = kind := by
  obtain ⟨there, nodes, also, directory, perm⟩ := list_ok listed
  cases found.symm.trans also
  rw [perm.mem_iff, List.mem_map]
  constructor
  · rintro ⟨⟨m, node⟩, member, same⟩
    cases same
    exact ⟨node, Place.holds_of_mem (find_distinct found).node directory member, rfl⟩
  · rintro ⟨node, holds, rfl⟩
    exact ⟨_, holds.mem directory, rfl⟩

theorem list_directory (found : fs.find true path = .ok here) (directory : here.node.kind = .directory) :
    ∃ entries, fs.list path = .ok entries := by
  cases node : here.node with
  | directory nodes =>
    unfold list
    rw [found]
    dsimp only
    rw [node]
    exact ⟨_, rfl⟩
  | file content | symlink target | special => simp [node, Node.kind] at directory

theorem list_of_kind (own : fs.kind true path = .ok .directory) :
    ∃ entries, fs.list path = .ok entries := by
  obtain ⟨here, found, directory⟩ := kind_inv own
  exact list_directory found directory

end FileSystem
end TreeDigest
