import TreeDigest.Proofs.FileSystem.Lookup
import TreeDigest.Proofs.Path.Strip
import TreeDigest.Proofs.Walk.Order
namespace TreeDigest

namespace TreeWalk
variable {fs : FileSystem} {w : TreeWalk} {trail ancestors : List Path} {path b c : Path} {n : Name}
  {kind k : Kind} {visits inTurn parallel : List Visit}

theorem respelled_join {front : List Bytes} {last : Bytes} (ends : path.parts.body = front ++ [last])
    (named : Path.isTrivial last = false) : respelled (path.join n.path) = path.join n.path := by
  obtain ⟨body, parts, same⟩ := path.parts_join n
  have whole : path.parts.body = body := by
    rcases same with same | same
    · exact same
    · obtain ⟨-, ending⟩ := List.append_inj' (ends.symm.trans same) rfl
      cases ending
      cases named
  have parent : (path.join n.path).parent? = some path := by
    have trimmed : Path.trimEnd path.parts.body = path.parts.body := by
      rw [ends, Path.trimEnd_snoc named]
    simp only [Path.parent?, parts, Path.trimEnd_snoc n.not_isTrivial, ← whole]
    split
    · rename_i empty
      simp at empty
    · rw [List.dropLast_concat, trimmed]
      exact congrArg some path.path_parts
  rw [respelled, parent, path.fileName?_join n]
  rfl

theorem includes_respelled {root : Path} (nonempty : w.root.bytes ≠ [])
    (same : root.components = w.root.components) (names : List Name) (n : Name) :
    w.includes (respelled ((root.below names).join n.path)) =
      w.includes ((root.below names).join n.path) := by
  rcases List.eq_nil_or_concat names with rfl | ⟨before, last, rfl⟩
  · have rooted := Path.components_ne_nil nonempty
    have spelled := components_respelled root n
    have joined := root.components_join n
    rw [same] at spelled joined
    rw [Path.below_nil]
    unfold TreeWalk.includes Exclusion.includes
    rw [Path.stripPrefix?_name rooted spelled, Path.stripPrefix?_name rooted joined]
  · obtain ⟨body, parts, -⟩ := (root.below before).parts_join last
    have ends : (root.below (before ++ [last])).parts.body = body ++ [last.bytes] := by
      rw [Path.below_append, Path.below_cons, Path.below_nil, parts]
    rw [List.concat_eq_append, respelled_join ends last.not_isTrivial]

-- The files that a walk hands on, the errors it hands on, and those that it hands on in place of a
-- directory which cannot be listed.
def handed? (w : TreeWalk) (visit : Visit) : Option Path :=
  match w.outcome visit with
  | .file path => some path
  | _ => none

def failure? (w : TreeWalk) (visit : Visit) : Option WalkError :=
  match w.outcome visit with
  | .error e => some e
  | _ => none

def lost? (fs : FileSystem) (w : TreeWalk) : Visit → Option WalkError
  | .ok (path, .directory) =>
    match fs.list path with
    | .error e => w.failure? (.error (.system path e))
    | .ok _ => none
  | _ => none

theorem handed_error (e : WalkError) : w.handed? (.error e) = none := by
  unfold handed? outcome
  dsimp only
  cases w.heeds e <;> rfl

theorem failure_ok (path : Path) (kind : Kind) : w.failure? (.ok (path, kind)) = none := by
  unfold failure? outcome
  cases kind with
  | file => cases here : w.includes path <;> simp [here]
  | directory | symlink | special => rfl

theorem failure_system (cause : SystemError) (included : w.includes path = true) :
    w.failure? (.error (.system path cause)) = some (.system path cause) := by
  simp [failure?, outcome, included]

-- Two walks that come by the same files in the same order, and by the same errors in any order. Only
-- the first of them reports the directories that it cannot list.
structure Agree (fs : FileSystem) (w : TreeWalk) (inTurn parallel : List Visit) : Prop where
  files : (parallel.filterMap w.handed?).map (·.components) =
    (inTurn.filterMap w.handed?).map (·.components)
  failures : (inTurn.filterMap w.failure?).Perm
    (parallel.filterMap w.failure? ++ inTurn.filterMap (lost? fs w))

namespace Agree

theorem nil : Agree fs w [] [] := ⟨rfl, .nil⟩

theorem error (e : WalkError) : Agree fs w [.error e] [.error e] := by
  refine ⟨rfl, ?_⟩
  have none : [Except.error e].filterMap (lost? fs w) = [] := rfl
  rw [none, List.append_nil]

theorem append {inTurn' parallel' : List Visit} (front : Agree fs w inTurn parallel)
    (back : Agree fs w inTurn' parallel') : Agree fs w (inTurn ++ inTurn') (parallel ++ parallel') where
  files := by simp only [List.filterMap_append, List.map_append, front.files, back.files]
  failures := by
    simp only [List.filterMap_append]
    refine (front.failures.append back.failures).trans ?_
    rw [List.append_assoc, List.append_assoc]
    refine List.Perm.append_left _ ?_
    rw [← List.append_assoc, ← List.append_assoc]
    exact List.perm_append_comm.append_right _

theorem flatMap {entries : List γ} {f g : γ → List Visit} (each : ∀ e ∈ entries, Agree fs w (f e) (g e)) :
    Agree fs w (entries.flatMap f) (entries.flatMap g) := by
  induction entries with
  | nil => exact nil
  | cons e rest ih =>
    rw [List.flatMap_cons, List.flatMap_cons]
    exact (each e (List.mem_cons_self ..)).append (ih fun e member => each e (List.mem_cons_of_mem _ member))

theorem cons (spelling : kind = .file → b.components = c.components ∧ w.includes b = w.includes c)
    (rest : Agree fs w inTurn parallel) (listed : kind = .directory → ∃ entries, fs.list c = .ok entries) :
    Agree fs w (.ok (c, kind) :: inTurn) (.ok (b, kind) :: parallel) := by
  have single : Agree fs w [.ok (c, kind)] [.ok (b, kind)] := by
    cases kind with
    | file =>
      obtain ⟨spelled, included⟩ := spelling rfl
      cases there : w.includes c with
      | true =>
        have here := included.trans there
        exact ⟨by simp [handed?, outcome, here, there, spelled],
          by simp [failure?, outcome, here, there, lost?]⟩
      | false =>
        have here := included.trans there
        exact ⟨by simp [handed?, outcome, here, there], by simp [failure?, outcome, here, there, lost?]⟩
    | directory =>
      obtain ⟨entries, listed⟩ := listed rfl
      have none : [Except.ok (c, Kind.directory)].filterMap (lost? fs w) = [] := by
        simp [lost?, listed]
      refine ⟨rfl, ?_⟩
      rw [none]
      exact .nil
    | symlink | special => exact ⟨rfl, .nil⟩
  exact single.append rest

theorem unlisted {e : SystemError} (failed : fs.list c = .error e) :
    Agree fs w [.ok (c, .directory), .error (.system c e)] [.ok (b, .directory)] := by
  have lost : [Except.ok (c, Kind.directory), .error (.system c e)].filterMap (lost? fs w) =
      [Except.error (.system c e)].filterMap w.failure? := by
    have none : lost? fs w (.error (.system c e)) = none := rfl
    have own : lost? fs w (.ok (c, .directory)) = w.failure? (.error (.system c e)) := by
      simp [lost?, failed]
    simp only [List.filterMap_cons, List.filterMap_nil, none, own]
  refine ⟨?_, ?_⟩
  · have own : w.handed? (.ok (c, .directory)) = none := rfl
    simp only [List.filterMap_cons, own, handed_error]
    rfl
  · rw [lost]
    exact .refl _

end Agree

def Loopless (visits : List Visit) : Prop := ∀ child ancestor, .error (.loop child ancestor) ∉ visits

theorem Loopless.tail {visit : Visit} (loopless : Loopless (visit :: visits)) : Loopless visits :=
  fun child a loop => loopless child a (List.mem_cons_of_mem _ loop)

theorem entry_cases (one : ∀ a, followed fs w trail c kind ≠ .error (.loop c a))
    (other : ∀ a, branch fs w ancestors c kind ≠ .error (.loop c a)) :
    (∃ e, followed fs w trail c kind = .error e ∧ branch fs w ancestors c kind = .error e) ∨
      ∃ k b, followed fs w trail c kind = .ok k ∧ (b = c ∨ b = respelled c) ∧
        branch fs w ancestors c kind = .ok ⟨b, k, if k = .directory then some c else none⟩ := by
  unfold followed at one ⊢
  unfold branch at other ⊢
  split
  · rename_i link
    rw [if_pos link] at one other
    unfold followLink at other ⊢
    cases found : fs.kind true c with
    | error e => exact .inl ⟨_, rfl, rfl⟩
    | ok k =>
      rw [found] at one other
      cases k with
      | directory =>
        dsimp only at one other ⊢
        cases above : trail.find? (fs.same · c) with
        | some a => rw [above] at one; exact absurd rfl (one a)
        | none =>
          cases spelled : ancestors.find? fun a => (fs.target? c).any (· == a) with
          | some a => rw [spelled] at other; exact absurd rfl (other a)
          | none => exact .inr ⟨_, _, rfl, .inr rfl, rfl⟩
      | file | symlink | special => exact .inr ⟨_, _, rfl, .inr rfl, rfl⟩
  · exact .inr ⟨_, _, rfl, .inl rfl, rfl⟩

def keeps (w : TreeWalk) : Except WalkError Branch → Bool
  | .ok b => w.includes b.path
  | .error _ => true

theorem arrange_eq (branches : List (Except WalkError Branch)) : arrange w branches =
    (branches.filter (keeps w)).filter (!isFailed ·) ++ (branches.filter (keeps w)).filter isFailed :=
  rfl

def kept (fs : FileSystem) (w : TreeWalk) (ancestors : List Path) (b : Except WalkError Branch) :
    List Visit :=
  if keeps w b then branchVisits fs w ancestors b else []

theorem flatMap_filter (entries : List γ) (keep : γ → Bool) (f : γ → List δ) :
    (entries.filter keep).flatMap f = entries.flatMap fun e => if keep e then f e else [] := by
  induction entries with
  | nil => rfl
  | cons e rest ih => cases kept : keep e <;> simp [kept, ih]

theorem flatMap_kept (branches : List (Except WalkError Branch)) :
    (branches.filter (keeps w)).flatMap (branchVisits fs w ancestors) =
      branches.flatMap (kept fs w ancestors) := flatMap_filter _ _ _

theorem arrange_perm (branches : List (Except WalkError Branch)) :
    ((arrange w branches).flatMap (branchVisits fs w ancestors)).Perm
      (branches.flatMap (kept fs w ancestors)) := by
  rw [← flatMap_kept, arrange_eq]
  refine List.Perm.flatMap_right _ ?_
  simpa using List.filter_append_perm (!isFailed ·) (branches.filter (keeps w))

theorem arrange_handed (branches : List (Except WalkError Branch)) :
    ((arrange w branches).flatMap (branchVisits fs w ancestors)).filterMap w.handed? =
      (branches.flatMap (kept fs w ancestors)).filterMap w.handed? := by
  have failed (e : WalkError) : (branchVisits fs w ancestors (.error e)).filterMap w.handed? = [] := by
    rw [branchVisits, List.filterMap_cons, handed_error, List.filterMap_nil]
  have last (bs : List (Except WalkError Branch)) :
      (bs.filter isFailed).flatMap (fun b => (branchVisits fs w ancestors b).filterMap w.handed?) = [] := by
    rw [List.flatMap_eq_nil_iff]
    intro b member
    cases b with
    | ok own => cases (List.mem_filter.mp member).2
    | error e => exact failed e
  have first (bs : List (Except WalkError Branch)) :
      (bs.filter (!isFailed ·)).flatMap (fun b => (branchVisits fs w ancestors b).filterMap w.handed?) =
        bs.flatMap fun b => (branchVisits fs w ancestors b).filterMap w.handed? := by
    induction bs with
    | nil => rfl
    | cons b rest ih =>
      cases b with
      | ok own => rw [List.filter_cons_of_pos rfl, List.flatMap_cons, List.flatMap_cons, ih]
      | error e =>
        rw [List.filter_cons_of_neg (by simp [isFailed]), List.flatMap_cons, failed, ih, List.nil_append]
  rw [← flatMap_kept, List.filterMap_flatMap, List.filterMap_flatMap, arrange_eq, List.flatMap_append,
    last, List.append_nil, first]

theorem arrange_agree {branches : List (Except WalkError Branch)}
    (agree : Agree fs w inTurn (branches.flatMap (kept fs w ancestors))) :
    Agree fs w inTurn ((arrange w branches).flatMap (branchVisits fs w ancestors)) where
  files := by rw [arrange_handed, agree.files]
  failures := agree.failures.trans (((arrange_perm branches).symm.filterMap _).append_right _)

theorem entry_agrees (spelling : (respelled c).components = c.components)
    (included : w.includes (respelled c) = w.includes c)
    (one : Loopless (entryVisits fs w trail c kind))
    (other : Loopless (kept fs w ancestors (branch fs w ancestors c kind)))
    (rest : ∀ entries, fs.list c = .ok entries → Loopless (below fs w (c :: trail) c) →
      Loopless (belowParallel fs w ancestors c) →
      Agree fs w (below fs w (c :: trail) c) (belowParallel fs w ancestors c)) :
    Agree fs w (entryVisits fs w trail c kind) (kept fs w ancestors (branch fs w ancestors c kind)) := by
  have apart (a : Path) : followed fs w trail c kind ≠ .error (.loop c a) := fun loop =>
    one c a (by rw [entryVisits, loop]; exact List.mem_singleton_self _)
  have apart' (a : Path) : branch fs w ancestors c kind ≠ .error (.loop c a) := fun loop =>
    other c a (by rw [loop]; exact List.mem_singleton_self _)
  rcases entry_cases apart apart' with ⟨e, went, made⟩ | ⟨k, b, went, same, made⟩
  · rw [entryVisits, went, made]
    exact .error e
  · have spelled : b.components = c.components := by
      rcases same with rfl | rfl
      · rfl
      · exact spelling
    have alike : w.includes b = w.includes c := by
      rcases same with rfl | rfl
      · rfl
      · exact included
    have mine : entryVisits fs w trail c kind = if w.includes c then .ok (c, k) ::
        if k = .directory then below fs w (c :: trail) c else [] else [] := by
      rw [entryVisits, went]
      cases w.includes c <;> rfl
    have theirs : kept fs w ancestors (branch fs w ancestors c kind) = if w.includes c then .ok (b, k) ::
        if k = .directory then belowParallel fs w ancestors c else [] else [] := by
      rw [made, kept, keeps, alike, branchVisits]
      by_cases directory : k = .directory <;> simp [directory]
    rw [mine] at one ⊢
    rw [theirs] at other ⊢
    cases here : w.includes c with
    | false => exact .nil
    | true =>
      simp only [here, if_true] at one other ⊢
      by_cases directory : k = .directory
      · subst directory
        simp only [if_true] at one other ⊢
        cases listed : fs.list c with
        | error e =>
          have nothing : belowParallel fs w ancestors c = [] := belowParallel_failed listed
          rw [below_failed listed, nothing]
          exact .unlisted listed
        | ok entries =>
          exact .cons (fun _ => ⟨spelled, alike⟩) (rest entries listed one.tail other.tail)
            fun _ => ⟨entries, listed⟩
      · simp only [directory, if_false]
        exact .cons (fun _ => ⟨spelled, alike⟩) .nil fun is => absurd is directory

theorem below_agrees (nonempty : w.root.bytes ≠ []) (names : List Name) {trail ancestors : List Path}
    {path : Path} (place : path = w.root.below names) {entries : List (Name × Kind)}
    (listed : fs.list path = .ok entries) (one : Loopless (below fs w trail path))
    (other : Loopless (belowParallel fs w ancestors path)) :
    Agree fs w (below fs w trail path) (belowParallel fs w ancestors path) := by
  rw [below_listed listed] at one ⊢
  rw [belowParallel_listed listed] at other ⊢
  apply arrange_agree
  have other : Loopless ((branches fs w (path :: ancestors) path entries).flatMap
      (kept fs w (path :: ancestors))) := fun child a loop =>
    other child a ((arrange_perm _).mem_iff.mpr loop)
  rw [branches, List.flatMap_map] at other ⊢
  apply Agree.flatMap
  rintro ⟨n, kind⟩ member
  apply entry_agrees
  · rw [components_respelled, path.components_join]
  · rw [place]
    exact includes_respelled nonempty rfl names n
  · exact fun child a loop => one child a (List.mem_flatMap.mpr ⟨_, member, loop⟩)
  · exact fun child a loop => other child a (List.mem_flatMap.mpr ⟨_, member, loop⟩)
  · intro others also one' other'
    -- What is below is walked under a longer path, and a directory that is listed has one that is short
    -- enough.
    have shorter := FileSystem.list_length listed
    have longer := path.join_name_length n
    exact below_agrees nonempty (names ++ [n]) (by rw [place, Path.below_append]; rfl) also
      one' other'
termination_by FileSystem.longestPath + 1 - path.bytes.length

end TreeWalk
end TreeDigest
