import TreeDigest.Proofs.FileSystem.Lookup
import TreeDigest.Proofs.Path.Strip
namespace TreeDigest.Path

-- The segments of a path that a look-up takes a step for. They are those of its components.
def named (segments : List Bytes) : List Bytes := segments.filter (!isTrivial ·)

def steps (p : Path) : List Bytes := named (segments p.bytes)

def Component.step? : Component → Option Bytes
  | .root | .current => none
  | .parent => some [dot, dot]
  | .normal name => some name

theorem named_append (front back : List Bytes) : named (front ++ back) = named front ++ named back :=
  List.filter_append ..

theorem named_bodyComponents (body : List Bytes) :
    (bodyComponents body).filterMap Component.step? = named body := by
  have own (segment : Bytes) : (bodyComponent segment).step? = some segment := by
    unfold bodyComponent
    split
    · rename_i same
      rw [same]
      rfl
    · rfl
  have each : Component.step? ∘ bodyComponent = some := funext own
  rw [bodyComponents, List.filterMap_map, each, List.filterMap_some]
  rfl

theorem steps_components (p : Path) : p.steps = p.components.filterMap Component.step? := by
  rw [components, List.filterMap_append, named_bodyComponents, parts_eq, steps]
  generalize segments p.bytes = all
  unfold partsOf
  split
  · rfl
  · rfl
  · rename_i first rest _ _
    by_cases here : first = [dot]
    · simp [here, Anchor.components, Component.step?, named, isTrivial]
    · simp [here, Anchor.components]
  · rfl

theorem isAbsolute_components (p : Path) :
    p.isAbsolute = true ↔ p.components.head? = some .root := by
  have body (segment : Bytes) : bodyComponent segment ≠ .root := by
    unfold bodyComponent
    split <;> nofun
  obtain ⟨bytes⟩ := p
  cases bytes with
  | nil => exact ⟨nofun, nofun⟩
  | cons b r =>
    rw [components, parts_eq]
    obtain ⟨first, rest, split⟩ := List.exists_cons_of_ne_nil (segments_ne_nil r)
    by_cases separator : b = slash
    · simp [isAbsolute, segments, separator, split, partsOf, Anchor.components]
    · by_cases here : b :: first = [dot]
      · simp [isAbsolute, segments, separator, split, partsOf, here, Anchor.components]
      · have own : isTrivial (b :: first) = false := by simpa [isTrivial] using here
        simp [isAbsolute, segments, separator, split, partsOf, here, Anchor.components,
          bodyComponents_cons, own, body]

theorem steps_congr {p q : Path} (same : p.components = q.components) :
    p.steps = q.steps ∧ p.isAbsolute = q.isAbsolute := by
  refine ⟨by rw [steps_components, steps_components, same], Bool.eq_iff_iff.mpr ?_⟩
  rw [isAbsolute_components, isAbsolute_components, same]

theorem steps_below (p : Path) (names : List Name) :
    (p.below names).steps = p.steps ++ names.map (·.bytes) := by
  rw [steps_components, steps_components, components_below, List.filterMap_append, List.filterMap_map]
  rw [show Component.step? ∘ (fun n : Name => .normal n.bytes) = some ∘ fun n => n.bytes from rfl,
    List.filterMap_eq_map]

theorem body_below (p : Path) (names : List Name) :
    ∃ front, (p.below names).parts.body = front ++ names.map (·.bytes) := by
  rcases List.eq_nil_or_concat names with rfl | ⟨before, n, rfl⟩
  · exact ⟨p.parts.body, (List.append_nil _).symm⟩
  · obtain ⟨front, own⟩ := body_below p before
    obtain ⟨body, parts, same⟩ := (p.below before).parts_join n
    rw [List.concat_eq_append, below_append, below_cons, below_nil, parts, List.map_append]
    rcases same with same | same
    · exact ⟨front, by rw [← same, own]; simp⟩
    · rcases List.eq_nil_or_concat before with rfl | ⟨earlier, m, rfl⟩
      · exact ⟨body, rfl⟩
      · rw [own, List.concat_eq_append, List.map_append, ← List.append_assoc] at same
        have last := (List.append_inj' same rfl).2
        exact absurd (List.cons.inj last).1 m.valid.1
termination_by names.length

theorem trim_named {body : List Bytes} (proper : ∀ segment ∈ body, isTrivial segment = false) :
    trimStart body = body ∧ trimEnd body = body := by
  constructor
  · cases body with
    | nil => rfl
    | cons segment rest =>
      exact List.dropWhile_cons_of_neg (by simp [proper segment (List.mem_cons_self ..)])
  · rcases List.eq_nil_or_concat body with rfl | ⟨front, last, rfl⟩
    · rfl
    · rw [List.concat_eq_append] at proper ⊢
      exact trimEnd_snoc (proper last (by simp))

theorem bodyComponents_nil {body : List Bytes} :
    bodyComponents body = [] ↔ ∀ segment ∈ body, isTrivial segment = true := by
  simp [bodyComponents]

theorem stripPrefix?_below {p base : Path} (nonempty : base.components ≠ [])
    (same : p.components = base.components) (names : List Name) :
    (p.below names).stripPrefix? base = some (Parts.path ⟨.none, names.map (·.bytes)⟩) := by
  have proper : ∀ segment ∈ names.map (·.bytes), isTrivial segment = false := by
    intro segment member
    obtain ⟨n, -, rfl⟩ := List.mem_map.mp member
    exact n.not_isTrivial
  have own : bodyComponents (names.map (·.bytes)) = names.map fun n => .normal n.bytes := by
    rw [bodyComponents, List.filter_eq_self.mpr (by simpa using proper), List.map_map]
    exact List.map_congr_left fun n _ => if_neg n.valid.2.2.2.2
  obtain ⟨left, stripped, later, ends⟩ := stripPrefix?_eq nonempty
    ((p.components_below names).trans (congrArg (· ++ _) same))
  obtain ⟨front, body⟩ := p.body_below names
  have trimmed : trimStart left = names.map (·.bytes) := by
    -- Both what is left and the names end the same body, and they have the same components.
    rw [body] at ends
    rcases List.suffix_or_suffix_of_suffix ends (List.suffix_append front _) with
      ⟨more, split⟩ | ⟨more, split⟩
    · rw [← split, bodyComponents_append, later, List.append_left_eq_self, bodyComponents_nil] at own
      have none : more = [] := by
        refine List.eq_nil_iff_forall_not_mem.mpr fun segment member => ?_
        have plain := proper segment (by rw [← split]; exact List.mem_append_left _ member)
        simp [own segment member] at plain
      rw [none, List.nil_append] at split
      rw [split]
      exact (trim_named proper).1
    · rw [← split, bodyComponents_append, own, List.append_left_eq_self, bodyComponents_nil] at later
      rw [← split, trimStart, List.dropWhile_append_of_pos later]
      exact (trim_named proper).1
  rw [stripped, trimmed, (trim_named proper).2]

theorem parts_below_empty (names : List Name) : (below ⟨[]⟩ names).parts = ⟨.none, names.map (·.bytes)⟩ := by
  rcases List.eq_nil_or_concat names with rfl | ⟨before, n, rfl⟩
  · rfl
  · have own := parts_below_empty before
    obtain ⟨body, parts, same⟩ := (below ⟨[]⟩ before).parts_join n
    rw [List.concat_eq_append, below_append, below_cons, below_nil, parts, own, List.map_append]
    rw [own] at same
    rcases same with same | same
    · rw [← same]
      rfl
    · have empty : [] ∈ before.map (·.bytes) := by
        rw [show before.map (·.bytes) = body ++ [[]] from same]
        exact List.mem_append_right _ (List.mem_singleton_self _)
      obtain ⟨m, -, none⟩ := List.mem_map.mp empty
      exact absurd none m.valid.1
termination_by names.length

theorem stripPrefix?_names (root : Path) (names : List Name) :
    (root.below names).stripPrefix? root = some (Parts.path ⟨.none, names.map (·.bytes)⟩) := by
  by_cases nonempty : root.bytes = []
  · obtain ⟨bytes⟩ := root
    cases nonempty
    have proper : ∀ segment ∈ names.map (·.bytes), isTrivial segment = false :=
      List.forall_mem_map.mpr fun n _ => n.not_isTrivial
    change some (below ⟨[]⟩ names).parts.trimEnd.path = _
    rw [parts_below_empty, Parts.trimEnd, (trim_named proper).2]
  · exact stripPrefix?_below (components_ne_nil nonempty) rfl names

theorem fileName?_snoc {p : Path} {front : List Bytes} {last : Bytes}
    (ends : segments p.bytes = front ++ [last]) (proper : isTrivial last = false)
    (other : last ≠ [dot, dot]) : p.fileName? = some last := by
  have body : ∃ before, p.parts.body = before ++ [last] := by
    rw [parts_eq, ends]
    by_cases first : front = []
    · refine ⟨[], ?_⟩
      subst first
      cases last with
      | nil => simp [isTrivial] at proper
      | cons b rest =>
        have plain : b :: rest ≠ [dot] := fun same => by simp [isTrivial, same] at proper
        simp [partsOf, plain]
    · obtain ⟨q, parts, -⟩ := partsOf_snoc first
      exact ⟨q.body, by rw [parts]⟩
  obtain ⟨before, body⟩ := body
  simp [fileName?, body, trimEnd_snoc proper, other]

end TreeDigest.Path
