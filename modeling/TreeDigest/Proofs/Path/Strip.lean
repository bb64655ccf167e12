import TreeDigest.Path.Relative
import TreeDigest.Proofs.Path.Join
namespace TreeDigest.Path

theorem joinSegments_segments (bs : Bytes) : joinSegments (segments bs) = bs := by
  induction bs with
  | nil => rfl
  | cons b r ih =>
    obtain ⟨first, rest, split⟩ := List.exists_cons_of_ne_nil (segments_ne_nil r)
    rw [split] at ih
    unfold segments
    split
    · rename_i separator
      rw [split, joinSegments, ih, separator]
      rfl
    · rw [split]
      cases rest with
      | nil => exact congrArg (b :: ·) ih
      | cons second rest => exact congrArg (b :: ·) ih

theorem path_parts (p : Path) : p.parts.path = p := by
  have whole := joinSegments_segments p.bytes
  rw [parts_eq]
  match segs : segments p.bytes with
  | [] => exact absurd segs (segments_ne_nil _)
  | [[]] =>
    rw [segs] at whole
    exact congrArg Path.mk whole
  | [] :: second :: rest =>
    rw [segs] at whole
    exact congrArg Path.mk whole
  | (b :: first) :: rest =>
    rw [segs] at whole
    by_cases here : b :: first = [dot]
    · simp only [partsOf, here, if_true]
      rw [here] at whole
      cases rest with
      | nil => exact congrArg Path.mk whole
      | cons second rest => exact congrArg Path.mk whole
    · simp only [partsOf, here, if_false]
      exact congrArg Path.mk whole

theorem components_ne_nil {p : Path} (nonempty : p.bytes ≠ []) : p.components ≠ [] := by
  rw [components, parts_eq]
  cases segs : segments p.bytes with
  | nil => exact absurd segs (segments_ne_nil _)
  | cons first rest =>
    cases first with
    | nil =>
      cases rest with
      | nil => exact absurd (segments_eq_empty segs) nonempty
      | cons second rest => simp [partsOf, Anchor.components]
    | cons b first =>
      by_cases here : b :: first = [dot]
      · simp [partsOf, here, Anchor.components]
      · simp [partsOf, here, bodyComponents, isTrivial]

theorem bodyComponents_cons (segment : Bytes) (body : List Bytes) :
    bodyComponents (segment :: body) =
      if isTrivial segment then bodyComponents body
      else bodyComponent segment :: bodyComponents body := by
  cases named : isTrivial segment <;> simp [bodyComponents, named]

theorem dropComponents?_eq {body : List Bytes} (front : List Component) {back : List Component}
    (same : bodyComponents body = front ++ back) :
    ∃ left, dropComponents? body front = some left ∧ bodyComponents left = back ∧ left <:+ body := by
  induction body generalizing front with
  | nil =>
    obtain ⟨rfl, rfl⟩ := List.append_eq_nil_iff.mp same.symm
    exact ⟨[], by rw [dropComponents?], rfl, List.suffix_rfl⟩
  | cons segment body ih =>
    cases front with
    | nil => exact ⟨segment :: body, by rw [dropComponents?], same, List.suffix_rfl⟩
    | cons c front =>
      rw [bodyComponents_cons] at same
      rw [dropComponents?]
      split
      · rename_i skipped
        rw [if_pos skipped] at same
        obtain ⟨left, dropped, back, ends⟩ := ih _ same
        exact ⟨left, dropped, back, ends.trans (List.suffix_cons ..)⟩
      · rename_i named
        rw [if_neg named] at same
        obtain ⟨own, rest⟩ := List.cons.inj same
        rw [if_pos own]
        obtain ⟨left, dropped, back, ends⟩ := ih _ rest
        exact ⟨left, dropped, back, ends.trans (List.suffix_cons ..)⟩

theorem stripPrefix?_eq {p base : Path} {rest : List Component} (nonempty : base.components ≠ [])
    (same : p.components = base.components ++ rest) :
    ∃ left, p.stripPrefix? base = some (Parts.path ⟨.none, trimEnd (trimStart left)⟩) ∧
      bodyComponents left = rest ∧ left <:+ p.parts.body := by
  unfold stripPrefix?
  obtain ⟨first, more, split⟩ := List.exists_cons_of_ne_nil nonempty
  rw [components] at same
  rw [split] at same ⊢
  dsimp only
  cases anchor : p.parts.anchor with
  | none =>
    rw [anchor] at same
    obtain ⟨left, dropped, own, ends⟩ := dropComponents?_eq (first :: more) same
    exact ⟨left, by simp [Anchor.components, dropped], own, ends⟩
  | root | current =>
    rw [anchor] at same
    obtain ⟨head, tail⟩ := List.cons.inj same
    obtain ⟨left, dropped, own, ends⟩ := dropComponents?_eq more tail
    exact ⟨left, by simp [Anchor.components, head, dropped], own, ends⟩

theorem stripPrefix?_same {p base : Path} (nonempty : base.components ≠ [])
    (same : p.components = base.components) : p.stripPrefix? base = some ⟨[]⟩ := by
  obtain ⟨left, stripped, none, -⟩ := stripPrefix?_eq nonempty (same.trans (List.append_nil _).symm)
  have trimmed : trimStart left = [] := by
    rw [trimStart, ← List.append_nil left, List.dropWhile_append_of_pos (by simpa [bodyComponents] using none)]
    rfl
  rw [stripped, trimmed]
  rfl

theorem trim_single {body : List Bytes} {n : Name} (single : bodyComponents body = [.normal n.bytes]) :
    trimEnd (trimStart body) = [n.bytes] := by
  obtain ⟨segment, kept, own⟩ : ∃ segment, body.filter (!isTrivial ·) = [segment] ∧
      bodyComponent segment = .normal n.bytes := by
    obtain ⟨segment, tail, kept, own, none⟩ := List.map_eq_cons_iff.mp single
    exact ⟨segment, by rw [kept, List.map_eq_nil_iff.mp none], own⟩
  have same : segment = n.bytes := by
    unfold bodyComponent at own
    split at own
    · cases own
    · exact Component.normal.inj own
  obtain ⟨before, after, rfl, front, named, back⟩ := List.filter_eq_cons_iff.mp kept
  have back := List.filter_eq_nil_iff.mp back
  have started : trimStart (before ++ segment :: after) = segment :: after := by
    rw [trimStart, List.dropWhile_append_of_pos (by simpa using front)]
    exact List.dropWhile_cons_of_neg (by simpa using named)
  rw [started, trimEnd, List.reverse_cons, List.dropWhile_append_of_pos (by simpa using back), same]
  simp [n.not_isTrivial]

theorem stripPrefix?_name {p base : Path} {n : Name} (nonempty : base.components ≠ [])
    (same : p.components = base.components ++ [.normal n.bytes]) : p.stripPrefix? base = some n.path := by
  obtain ⟨left, stripped, single, -⟩ := stripPrefix?_eq nonempty same
  rw [stripped, trim_single single]
  rfl

end TreeDigest.Path
