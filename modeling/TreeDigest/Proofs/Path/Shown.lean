import TreeDigest.Proofs.Path.Spelling
import TreeDigest.Proofs.Text.Utf8
namespace TreeDigest.Path

variable {p q root : Path} {rest : List Component}

-- The path that is written out where another one is shown under a root: what it leaves of the root, or
-- all of it where that is nothing.
def shownUnder (p root : Path) : Path :=
  match p.stripPrefix? root with
  | some rel => if rel.isEmpty then p else rel
  | none => p

theorem displayUnder_eq (p root : Path) : p.displayUnder root = (p.shownUnder root).slashText := by
  unfold displayUnder shownUnder
  cases p.stripPrefix? root with
  | none => rfl
  | some rel => cases empty : rel.isEmpty <;> simp [empty]

def newline : UInt8 := 10

def backslash : UInt8 := 92

theorem newline_mem_slashText : '\n' ∈ p.slashText.toList ↔ newline ∈ p.bytes := by
  have own : '\n' ∈ Utf8.lossyChars p.bytes ↔ newline ∈ p.bytes :=
    Utf8.mem_lossyChars (show newline < 0x80 by decide)
  rw [slashText, String.toList_ofList, List.mem_map, ← own]
  constructor
  · rintro ⟨c, member, shown⟩
    split at shown
    · cases shown
    · exact shown ▸ member
  · intro member
    exact ⟨'\n', member, rfl⟩

structure Legible (p : Path) : Prop where
  text : (Utf8.text? p.bytes).isSome = true
  plain : backslash ∉ p.bytes

theorem Legible.text?_eq (legible : p.Legible) : Utf8.text? p.bytes = some p.slashText := by
  obtain ⟨s, read⟩ := Option.isSome_iff_exists.mp legible.text
  obtain ⟨cs, chars, rfl⟩ := Option.map_eq_some_iff.mp read
  obtain ⟨-, shown⟩ := Utf8.chars?_eq chars
  have plain : '\\' ∉ cs := by
    rw [← shown]
    exact mt (Utf8.mem_lossyChars (show backslash < 0x80 by decide)).mp legible.plain
  have same : cs.map (fun c => if c = '\\' then '/' else c) = cs := by
    refine (List.map_congr_left fun c member => if_neg ?_).trans (List.map_id cs)
    rintro rfl
    exact plain member
  rw [Utf8.text?, chars, slashText, shown, same]
  rfl

theorem Legible.encode_slashText (legible : p.Legible) : Utf8.encode p.slashText = p.bytes := by
  obtain ⟨cs, chars, own⟩ := Option.map_eq_some_iff.mp legible.text?_eq
  rw [← own, Utf8.encode, String.toList_ofList, (Utf8.chars?_eq chars).1]

theorem slashText_injective (one : p.Legible) (other : q.Legible) (same : p.slashText = q.slashText) :
    p = q := by
  have bytes := one.encode_slashText
  rw [same, other.encode_slashText] at bytes
  exact congrArg Path.mk bytes.symm

theorem bodyComponents_trimStart (body : List Bytes) :
    bodyComponents (trimStart body) = bodyComponents body := by
  have split : body = body.takeWhile isTrivial ++ trimStart body :=
    List.takeWhile_append_dropWhile.symm
  have none : bodyComponents (body.takeWhile isTrivial) = [] := by
    simp only [bodyComponents, List.map_eq_nil_iff, List.filter_eq_nil_iff]
    intro segment member
    simpa using List.all_eq_true.mp List.all_takeWhile segment member
  rw [congrArg bodyComponents split, bodyComponents_append, none, List.nil_append]

theorem components_trimmed {body : List Bytes} (plain : ∀ segment ∈ body, slash ∉ segment) :
    (Parts.path ⟨.none, trimEnd (trimStart body)⟩).components = bodyComponents body := by
  obtain ⟨back, split, trimmed⟩ := trimEnd_split (trimStart body)
  have whole : (⟨.none, trimStart body⟩ : Parts).Plain := by
    refine ⟨fun segment member => plain segment ((List.dropWhile_suffix _).subset member), ?_⟩
    intro _ first rest begins
    change trimStart body = first :: rest at begins
    have named := List.head?_dropWhile_not isTrivial body
    rw [show body.dropWhile isTrivial = first :: rest from begins] at named
    simpa using named
  rw [(whole.front split).components_path, trimmed, bodyComponents_trimStart]
  rfl

theorem filled_of_components (nonempty : p.components ≠ []) : p.isEmpty = false := by
  rw [isEmpty, List.isEmpty_eq_false_iff]
  intro empty
  have none : p = ⟨[]⟩ := congrArg Path.mk empty
  rw [none] at nonempty
  exact nonempty rfl

theorem components_shownUnder (nonempty : root.components ≠ []) (more : rest ≠ [])
    (same : p.components = root.components ++ rest) : (p.shownUnder root).components = rest := by
  obtain ⟨left, stripped, own, ends⟩ := stripPrefix?_eq nonempty same
  have plain : ∀ segment ∈ left, slash ∉ segment :=
    fun segment member => p.parts_plain.segments segment (ends.subset member)
  have components := (components_trimmed plain).trans own
  rw [shownUnder, stripped]
  dsimp only
  rw [filled_of_components (by rw [components]; exact more)]
  exact components

section Names
variable {names : List Name}

theorem components_names :
    (Parts.path ⟨.none, names.map (·.bytes)⟩).components = names.map fun n => .normal n.bytes := by
  have named : ∀ segment ∈ names.map (·.bytes), isTrivial segment = false := by
    intro segment member
    obtain ⟨n, -, rfl⟩ := List.mem_map.mp member
    exact n.not_isTrivial
  have plain : ∀ segment ∈ names.map (·.bytes), slash ∉ segment := by
    intro segment member
    obtain ⟨n, -, rfl⟩ := List.mem_map.mp member
    exact n.valid.2.1
  have read := components_trimmed plain
  rw [(trim_named named).1, (trim_named named).2] at read
  rw [read, bodyComponents, List.filter_eq_self.mpr (by simpa using named), List.map_map]
  exact List.map_congr_left fun n _ => if_neg n.valid.2.2.2.2

theorem shownUnder_below (nonempty : root.components ≠ []) (more : names ≠ []) :
    (root.below names).shownUnder root = Parts.path ⟨.none, names.map (·.bytes)⟩ := by
  have filled : (Parts.path ⟨.none, names.map (·.bytes)⟩).components ≠ [] := by
    rw [components_names]
    exact fun none => more (List.map_eq_nil_iff.mp none)
  rw [shownUnder, stripPrefix?_below nonempty rfl]
  dsimp only
  rw [filled_of_components filled]
  rfl

end Names

end TreeDigest.Path
