import TreeDigest.Exclusion
import TreeDigest.Proofs.Glob.Matching
import TreeDigest.Proofs.Path.Shown
namespace TreeDigest

namespace Glob
variable {cs t : List Char}

def outline (cs : List Char) : List Char := cs.map fun c => if c = '\\' then '/' else '?'

theorem body_outline : body (String.ofList (outline cs)) = outline cs := by
  unfold body
  rw [String.toList_ofList]
  split
  · rename_i rest starts
    cases cs with
    | nil => cases starts
    | cons c cs =>
      have first : (if c = '\\' then '/' else '?') = '!' := (List.cons.inj starts).1
      split at first <;> cases first
  · rfl

theorem outline_matches : Matches (outline cs) (cs.map fun c => if c = '\\' then '/' else c) := by
  induction cs with
  | nil => exact .done
  | cons c cs ih =>
    by_cases separator : c = '\\'
    · rw [outline, List.map_cons, List.map_cons, if_pos separator, if_pos separator]
      exact .same (by decide) (by decide) ih
    · rw [outline, List.map_cons, List.map_cons, if_neg separator, if_neg separator]
      exact .one c ih

theorem outline_length (matched : Matches (outline cs) t) : t.length = cs.length := by
  have plain : ∀ x ∈ outline cs, x ≠ '*' := by
    intro x member
    obtain ⟨c, -, rfl⟩ := List.mem_map.mp member
    split <;> decide
  rw [← List.append_nil (outline cs)] at matched
  obtain ⟨short, rest⟩ := matched.starless plain
  have used := List.drop_eq_nil_iff.mp (matches_nil.mp rest)
  rw [outline, List.length_map] at short used
  omega

theorem outline_unmatched (separator : '\\' ∈ cs) : ¬ Matches (outline cs) cs := by
  induction cs with
  | nil => cases separator
  | cons c cs ih =>
    rw [outline, List.map_cons]
    by_cases own : c = '\\'
    · rw [if_pos own, matches_same (by decide) (by decide)]
      rintro ⟨same, -⟩
      cases own.symm.trans same.symm
    · rw [if_neg own, matches_one]
      exact ih ((List.mem_cons.mp separator).resolve_left (Ne.symm own))

theorem globMatch_outline {text : String} : globMatch (String.ofList (outline cs)) text = true ↔
    Matches (outline cs) text.toList := by
  rw [globMatch, run_matched, body_outline]

end Glob

namespace Exclusion
open TreeDigest.Path

variable {root : Path} {n : Name} {names dirs : List Name} {patterns : List String}

theorem includes_names (root : Path) (patterns : List String) (nonempty : names ≠ []) :
    includes (root.below names) root patterns =
      !(names.any (fun n => rejectsComponent patterns (.normal n.bytes)) ||
        rejectsText patterns (Parts.path ⟨.none, names.map (·.bytes)⟩).slashText) := by
  have filled : (Parts.path ⟨.none, names.map (·.bytes)⟩).isEmpty = false :=
    filled_of_components (by rw [components_names]; exact fun none => nonempty (List.map_eq_nil_iff.mp none))
  unfold includes
  rw [stripPrefix?_names]
  dsimp only
  rw [filled, components_names, List.any_map]
  rfl

theorem includes_name (root : Path) (patterns : List String) (n : Name) :
    includes (root.join n.path) root patterns =
      !(rejectsComponent patterns (.normal n.bytes) || rejectsText patterns n.path.slashText) := by
  have single := includes_names root patterns (List.cons_ne_nil n [])
  rwa [List.any_cons, List.any_nil, Bool.or_false] at single

theorem rejected_component (rejects : rejectsComponent patterns (.normal n.bytes) = true) :
    includes (root.below (dirs ++ [n])) root patterns = false := by
  rw [includes_names _ _ (List.append_ne_nil_of_right_ne_nil _ (List.cons_ne_nil n []))]
  simp [rejects]

theorem rejectsComponent_junk (junk : rejectsComponent [] (.normal n.bytes) = true) :
    rejectsComponent patterns (.normal n.bytes) = true := by
  unfold rejectsComponent at junk ⊢
  dsimp only at junk ⊢
  split at junk
  · rename_i name read
    simp only [rejectsText, List.any_nil, Bool.or_false] at junk
    rw [junk, Bool.true_or]
  · cases junk

theorem rejectsComponent_legible (legible : n.path.Legible)
    (rejects : rejectsText patterns n.path.slashText = true) :
    rejectsComponent patterns (.normal n.bytes) = true := by
  have read : Utf8.text? n.bytes = some n.path.slashText := legible.text?_eq
  simp [rejectsComponent, read, rejects]

theorem rejectsComponent_of_includes (own : n.path.Legible ∨ rejectsComponent [] (.normal n.bytes) = true)
    (rejected : includes (root.join n.path) root patterns = false) :
    rejectsComponent patterns (.normal n.bytes) = true := by
  rcases own with legible | junk
  · rw [includes_name, Bool.not_eq_false', Bool.or_eq_true] at rejected
    exact rejected.elim id (rejectsComponent_legible legible)
  · exact rejectsComponent_junk junk

-- The pattern that rejects a name by nothing but what is written of it.
def outlined (n : Name) : String := String.ofList (Glob.outline (Utf8.lossyChars n.bytes))

theorem outlined_iff {text : String} : rejectsText [outlined n] text = true ↔
    Glob.Matches (Glob.outline (Utf8.lossyChars n.bytes)) text.toList := by
  rw [rejectsText, List.any_cons, List.any_nil, Bool.or_false]
  exact Glob.globMatch_outline

theorem outlined_length {text : String} (other : text.toList.length ≠ (Utf8.lossyChars n.bytes).length) :
    rejectsText [outlined n] text = false :=
  Bool.eq_false_iff.mpr fun rejects => other (Glob.outline_length (outlined_iff.mp rejects))

theorem outlined_rejects (root : Path) (n : Name) :
    includes (root.join n.path) root [outlined n] = false := by
  have rejects : rejectsText [outlined n] n.path.slashText = true := by
    rw [outlined_iff, slashText, String.toList_ofList]
    exact Glob.outline_matches
  rw [includes_name, rejects, Bool.or_true]
  rfl

theorem outlined_component (illegible : ¬ n.path.Legible)
    (clean : rejectsComponent [] (.normal n.bytes) = false) :
    rejectsComponent [outlined n] (.normal n.bytes) = false := by
  unfold rejectsComponent at clean ⊢
  dsimp only at clean ⊢
  cases read : Utf8.text? n.bytes with
  | none => rfl
  | some name =>
    rw [read] at clean
    dsimp only at clean ⊢
    have separator : backslash ∈ n.bytes :=
      Decidable.byContradiction fun plain => illegible ⟨by rw [Name.path, read]; rfl, plain⟩
    obtain ⟨cs, chars, rfl⟩ := Option.map_eq_some_iff.mp read
    obtain ⟨-, shown⟩ := Utf8.chars?_eq chars
    have unmatched : ¬ Glob.Matches (Glob.outline cs) cs := by
      apply Glob.outline_unmatched
      rw [← shown]
      exact (Utf8.mem_lossyChars (show backslash < 0x80 by decide)).mpr separator
    have passed : rejectsText [outlined n] (String.ofList cs) = false := by
      rw [Bool.eq_false_iff, ne_eq, outlined_iff, shown, String.toList_ofList]
      exact unmatched
    simp only [rejectsText, List.any_nil, Bool.or_false] at clean
    rw [clean, passed]
    rfl

theorem outlined_passes {d : Name} (plain : d.bytes.all (· < 0x80))
    (clean : isJunkName (String.ofList (Utf8.ascii d.bytes)) = false)
    (other : d.bytes.length ≠ (Utf8.lossyChars n.bytes).length) (illegible : ¬ n.path.Legible)
    (clean' : rejectsComponent [] (.normal n.bytes) = false) :
    includes (root.below [d, n]) root [outlined n] = true := by
  have above : rejectsComponent [outlined n] (.normal d.bytes) = false := by
    have passed : rejectsText [outlined n] (String.ofList (Utf8.ascii d.bytes)) = false :=
      outlined_length (by rwa [String.toList_ofList, Utf8.ascii, List.length_map])
    simp only [rejectsComponent, Utf8.text?_ascii plain, clean, passed]
    rfl
  have whole : rejectsText [outlined n] (Parts.path ⟨.none, [d.bytes, n.bytes]⟩).slashText = false := by
    apply outlined_length
    change (slashText ⟨d.bytes ++ slash :: n.bytes⟩).toList.length ≠ _
    rw [slashText, String.toList_ofList, List.length_map, Utf8.lossyChars_append plain,
      Utf8.lossyChars_small (by decide), List.length_append, Utf8.ascii, List.length_map, List.length_cons]
    omega
  rw [includes_names _ _ (List.cons_ne_nil d [n])]
  simp only [List.any_cons, List.any_nil, List.map_cons, List.map_nil, above, whole,
    outlined_component illegible clean']
  rfl

theorem outlined_escapes (root : Path) (illegible : ¬ n.path.Legible)
    (clean : rejectsComponent [] (.normal n.bytes) = false) :
    ∃ dirs, includes (root.below (dirs ++ [n])) root [outlined n] = true := by
  by_cases single : (Utf8.lossyChars n.bytes).length = 1
  · exact ⟨[⟨[100, 100], by decide⟩], outlined_passes (by decide) (by decide +kernel)
      (by rw [single]; decide) illegible clean⟩
  · exact ⟨[⟨[100], by decide⟩], outlined_passes (by decide) (by decide +kernel) (Ne.symm single) illegible
      clean⟩

-- An entry whose name is rejected is left out at every depth. That it is left out at the top says so of
-- its name exactly if the name is written out as it stands, or is one of junk: of any other name the text
-- of the whole path may be rejected at the top, and the same name kept further down.
theorem rejected_at_every_depth (root : Path) (n : Name) :
    (∀ patterns dirs, rejectsComponent patterns (.normal n.bytes) = true →
      includes (root.below (dirs ++ [n])) root patterns = false) ∧
    (n.path.Legible ∨ rejectsComponent [] (.normal n.bytes) = true ↔
      ∀ patterns, includes (root.join n.path) root patterns = false →
        ∀ dirs, includes (root.below (dirs ++ [n])) root patterns = false) := by
  refine ⟨fun patterns dirs => rejected_component, fun own patterns rejected dirs => ?_, fun every => ?_⟩
  · exact rejected_component (rejectsComponent_of_includes own rejected)
  · refine Classical.byContradiction fun neither => ?_
    rw [not_or, Bool.not_eq_true] at neither
    obtain ⟨dirs, included⟩ := outlined_escapes root neither.1 neither.2
    rw [every _ (outlined_rejects root n) dirs] at included
    cases included

def top : Path := ⟨[slash, 114]⟩

def inner : Name := ⟨[100], by decide⟩

def letters : Name := ⟨[97, 98], by decide⟩

def stray : Name := ⟨[120, 255], by decide⟩

def parted : Name := ⟨[97, backslash, 98], by decide⟩

theorem outlined_letters : outlined letters = "??" := by decide +kernel

theorem outlined_stray : outlined stray = "??" := by decide +kernel

theorem outlined_parted : outlined parted = "?/?" := by decide +kernel

theorem letters_rejected : includes (top.join letters.path) top ["??"] = false ∧
    includes (top.below ([inner, inner] ++ [letters])) top ["??"] = false := by
  have legible : letters.path.Legible := ⟨by rw [Utf8.text?_ascii (by decide)]; rfl, by decide⟩
  have rejected : includes (top.join letters.path) top ["??"] = false :=
    outlined_letters ▸ outlined_rejects top letters
  exact ⟨rejected, (rejected_at_every_depth top letters).2.mp (.inl legible) _ rejected _⟩

theorem kept_further_down :
    includes (top.join stray.path) top ["??"] = false ∧
      includes (top.below [inner, stray]) top ["??"] = true ∧
    includes (top.join parted.path) top ["?/?"] = false ∧
      includes (top.below [inner, parted]) top ["?/?"] = true := by
  have untold : ¬ stray.path.Legible := fun legible => absurd legible.text (by decide +kernel)
  have separated : ¬ parted.path.Legible := fun legible => legible.plain (by decide)
  refine ⟨outlined_stray ▸ outlined_rejects top stray, ?_, outlined_parted ▸ outlined_rejects top parted, ?_⟩
  · rw [← outlined_stray]
    exact outlined_passes (by decide) (by decide +kernel) (by decide +kernel) untold (by decide +kernel)
  · rw [← outlined_parted]
    exact outlined_passes (by decide) (by decide +kernel) (by decide +kernel) separated (by decide +kernel)

end Exclusion
end TreeDigest
