import TreeDigest.FileSystem.Resolve
import TreeDigest.Proofs.Path.Order
namespace TreeDigest
namespace Path

theorem segments_ne_nil (bs : Bytes) : segments bs ≠ [] := by
  cases bs with
  | nil => nofun
  | cons b r =>
    unfold segments
    split
    · nofun
    · split <;> nofun

theorem segments_append (a b : Bytes) : segments (a ++ slash :: b) = segments a ++ segments b := by
  induction a with
  | nil => simp [segments]
  | cons x a ih =>
    by_cases separator : x = slash
    · simp [segments, separator, ih]
    · cases front : segments a with
      | nil => exact absurd front (segments_ne_nil a)
      | cons first rest => simp [segments, separator, ih, front]

theorem segments_plain {bs : Bytes} (plain : slash ∉ bs) : segments bs = [bs] := by
  induction bs with
  | nil => rfl
  | cons b r ih =>
    simp only [List.mem_cons, not_or] at plain
    simp [segments, Ne.symm plain.1, ih plain.2]

theorem segments_repeat {s t : Bytes} (plain : slash ∉ s) (also : slash ∉ t) (n : Nat) :
    segments (s ++ (List.replicate n (slash :: t)).flatten) = s :: List.replicate n t := by
  induction n generalizing s with
  | zero => simpa using segments_plain plain
  | succ n ih =>
    rw [List.replicate_succ, List.flatten_cons, List.cons_append, segments_append, segments_plain plain,
      ih also, List.replicate_succ]
    rfl

theorem segments_eq_empty {bs : Bytes} (empty : segments bs = [[]]) : bs = [] := by
  cases bs with
  | nil => rfl
  | cons b r =>
    unfold segments at empty
    split at empty
    · exact absurd (List.cons.inj empty).2 (segments_ne_nil r)
    · split at empty
      · exact absurd (List.cons.inj empty).1 nofun
      · cases empty

theorem slash_notMem_segments {bs segment : Bytes} (member : segment ∈ segments bs) :
    slash ∉ segment := by
  induction bs generalizing segment with
  | nil => simp_all [segments]
  | cons b r ih =>
    unfold segments at member
    split at member
    · rcases List.mem_cons.mp member with rfl | later
      · nofun
      · exact ih later
    · rename_i other
      split at member
      · rename_i first rest found
        rcases List.mem_cons.mp member with rfl | later
        · have before : slash ∉ first := ih (by simp [found])
          simp [Ne.symm other, before]
        · exact ih (by simp [found, later])
      · rw [List.mem_singleton] at member
        simp [member, Ne.symm other]

theorem mem_of_segments {bs segment : Bytes} {b : UInt8} (member : segment ∈ segments bs)
    (inner : b ∈ segment) : b ∈ bs := by
  induction bs generalizing segment with
  | nil => simp_all [segments]
  | cons first r ih =>
    unfold segments at member
    split at member
    · rcases List.mem_cons.mp member with rfl | later
      · cases inner
      · exact List.mem_cons_of_mem _ (ih later inner)
    · split at member
      · rename_i own rest found
        rcases List.mem_cons.mp member with rfl | later
        · rcases List.mem_cons.mp inner with rfl | within
          · exact List.mem_cons_self ..
          · exact List.mem_cons_of_mem _ (ih (by rw [found]; exact List.mem_cons_self ..) within)
        · exact List.mem_cons_of_mem _ (ih (by rw [found]; exact List.mem_cons_of_mem _ later) inner)
      · rename_i none
        exact absurd none (segments_ne_nil r)

theorem segments_join {body : List Bytes} (plain : ∀ segment ∈ body, slash ∉ segment)
    (nonempty : body ≠ []) : segments (joinSegments body) = body := by
  induction body with
  | nil => exact absurd rfl nonempty
  | cons first rest ih =>
    have own := plain first (List.mem_cons_self ..)
    cases rest with
    | nil => exact segments_plain own
    | cons second rest =>
      have later := ih (fun segment member => plain segment (List.mem_cons_of_mem _ member)) nofun
      rw [joinSegments, segments_append, segments_plain own, later]
      rfl

def partsOf : List Bytes → Parts
  | [] :: [] => ⟨.none, []⟩
  | [] :: rest => ⟨.root, rest⟩
  | first :: rest => if first = [dot] then ⟨.current, rest⟩ else ⟨.none, first :: rest⟩
  | [] => ⟨.none, []⟩

theorem parts_eq (p : Path) : p.parts = partsOf (segments p.bytes) := rfl

theorem partsOf_snoc {front : List Bytes} (nonempty : front ≠ []) :
    ∃ q : Parts, (∀ x, partsOf (front ++ [x]) = ⟨q.anchor, q.body ++ [x]⟩) ∧
      (front ≠ [[]] → partsOf front = q) := by
  match front with
  | [] => exact absurd rfl nonempty
  | [] :: rest =>
    refine ⟨⟨.root, rest⟩, ?_, ?_⟩
    · intro x
      cases rest <;> rfl
    · intro other
      cases rest with
      | nil => exact absurd rfl other
      | cons second rest => rfl
  | (b :: first) :: rest =>
    by_cases here : b :: first = [dot]
    · refine ⟨⟨.current, rest⟩, fun x => ?_, fun _ => ?_⟩ <;> simp [partsOf, here]
    · refine ⟨⟨.none, (b :: first) :: rest⟩, fun x => ?_, fun _ => ?_⟩ <;> simp [partsOf, here]

theorem bodyComponents_append (a b : List Bytes) :
    bodyComponents (a ++ b) = bodyComponents a ++ bodyComponents b := by
  simp [bodyComponents]

end Path

namespace Name
variable (n : Name)

theorem path_isAbsolute : n.path.isAbsolute = false := by
  cases bytes : n.bytes with
  | nil => simp [Path.isAbsolute, path, bytes]
  | cons b r =>
    have plain := n.valid.2.1
    rw [bytes, List.mem_cons, not_or] at plain
    simpa [Path.isAbsolute, path, bytes] using Ne.symm plain.1

theorem not_isTrivial : Path.isTrivial n.bytes = false := by
  simp [Path.isTrivial, n.valid.1, n.valid.2.2.2.1]

theorem bodyComponents_eq : Path.bodyComponents [n.bytes] = [.normal n.bytes] := by
  simp [Path.bodyComponents, n.not_isTrivial, Path.bodyComponent, n.valid.2.2.2.2]

end Name

namespace Path

theorem parts_join (p : Path) (n : Name) :
    ∃ body, (p.join n.path).parts = ⟨p.parts.anchor, body ++ [n.bytes]⟩ ∧
      (p.parts.body = body ∨ p.parts.body = body ++ [[]]) := by
  have own : segments n.bytes = [n.bytes] := segments_plain n.valid.2.1
  unfold join
  rw [n.path_isAbsolute]
  simp only [Bool.false_eq_true, if_false]
  split
  · rename_i empty
    have bytes : p.bytes = [] := List.isEmpty_iff.mp empty
    refine ⟨[], ?_, .inl ?_⟩
    · rw [parts_eq, parts_eq, bytes, Name.path, own]
      simp [segments, partsOf, n.valid.1, n.valid.2.2.2.1]
    · simp [parts_eq, bytes, segments, partsOf]
  · rename_i nonempty
    split
    · rename_i last
      obtain ⟨front, bytes⟩ : ∃ front, p.bytes = front ++ [slash] :=
        List.getLast?_eq_some_iff.mp last
      obtain ⟨q, ends, -⟩ := partsOf_snoc (segments_ne_nil front)
      have before : p.parts = ⟨q.anchor, q.body ++ [[]]⟩ := by
        rw [parts_eq, bytes, segments_append]
        exact ends []
      refine ⟨q.body, ?_, .inr (by rw [before])⟩
      rw [before, parts_eq, bytes, Name.path, List.append_assoc, List.singleton_append,
        segments_append, own]
      exact ends n.bytes
    · have whole : segments p.bytes ≠ [[]] := fun empty => by
        simp [segments_eq_empty empty] at nonempty
      obtain ⟨q, ends, same⟩ := partsOf_snoc (segments_ne_nil p.bytes)
      have before : p.parts = q := same whole
      refine ⟨q.body, ?_, .inl (by rw [before])⟩
      rw [before, parts_eq, Name.path, segments_append, own]
      exact ends n.bytes

theorem components_join (p : Path) (n : Name) :
    (p.join n.path).components = p.components ++ [.normal n.bytes] := by
  obtain ⟨body, parts, same⟩ := p.parts_join n
  have before : bodyComponents p.parts.body = bodyComponents body := by
    rcases same with same | same
    · rw [same]
    · rw [same, bodyComponents_append]
      simp [bodyComponents, isTrivial]
  simp [components, parts, before, bodyComponents_append, n.bodyComponents_eq]

theorem mem_of_parts {p : Path} {segment : Bytes} (member : segment ∈ p.parts.body) :
    segment ∈ segments p.bytes := by
  rw [parts_eq] at member
  match segs : segments p.bytes with
  | [] => exact absurd segs (segments_ne_nil _)
  | [[]] => simp [segs, partsOf] at member
  | [] :: second :: rest =>
    rw [segs] at member
    exact List.mem_cons_of_mem _ member
  | (b :: first) :: rest =>
    rw [segs, partsOf] at member
    · split at member
      · exact List.mem_cons_of_mem _ member
      · exact member
    · nofun
    · nofun

-- Parts that can be told from their text: their segments hold no separator, and where nothing stands
-- before them the first one names something.
structure Parts.Plain (q : Parts) : Prop where
  segments : ∀ segment ∈ q.body, slash ∉ segment
  first : q.anchor = .none → ∀ first rest, q.body = first :: rest → isTrivial first = false

theorem parts_plain (p : Path) : p.parts.Plain where
  segments _ member := slash_notMem_segments (mem_of_parts member)
  first anchor first rest body := by
    rw [parts_eq] at anchor body
    match segs : segments p.bytes with
    | [] => exact absurd segs (segments_ne_nil _)
    | [[]] => simp [segs, partsOf] at body
    | [] :: second :: others => simp [segs, partsOf] at anchor
    | (b :: own) :: others =>
      by_cases here : b :: own = [dot]
      · simp [segs, partsOf, here] at anchor
      · simp only [segs, partsOf, here, if_false] at body
        obtain ⟨rfl, -⟩ := List.cons.inj body
        simpa [isTrivial] using here

theorem Parts.Plain.front {q : Parts} {front back : List Bytes} (plain : q.Plain)
    (split : q.body = front ++ back) : (⟨q.anchor, front⟩ : Parts).Plain where
  segments segment member := plain.segments segment (by simp [split, member])
  first anchor first rest same := by
    apply plain.first anchor first (rest ++ back)
    rw [split]
    simp_all

theorem Parts.Plain.components_path {q : Parts} (plain : q.Plain) :
    q.path.components = q.anchor.components ++ bodyComponents q.body := by
  obtain ⟨anchor, body⟩ := q
  cases body with
  | nil => cases anchor <;> rfl
  | cons first rest =>
    have whole := segments_join plain.segments nofun
    cases anchor with
    | root =>
      have parts : (Parts.path ⟨.root, first :: rest⟩).parts = ⟨.root, first :: rest⟩ := by
        rw [parts_eq, Parts.path, ← List.nil_append (slash :: _), segments_append, whole]
        rfl
      rw [components, parts]
    | current =>
      have parts : (Parts.path ⟨.current, first :: rest⟩).parts = ⟨.current, first :: rest⟩ := by
        have text : Parts.path ⟨.current, first :: rest⟩ =
            ⟨[dot] ++ slash :: joinSegments (first :: rest)⟩ := rfl
        rw [parts_eq, text, segments_append, whole]
        rfl
      rw [components, parts]
    | none =>
      have named := plain.first rfl first rest rfl
      have parts : (Parts.path ⟨.none, first :: rest⟩).parts = ⟨.none, first :: rest⟩ := by
        rw [parts_eq, Parts.path, whole]
        cases first with
        | nil => simp [isTrivial] at named
        | cons b tail =>
          have other : b :: tail ≠ [dot] := by simpa [isTrivial] using named
          simp [partsOf, other]
      rw [components, parts]

theorem trimEnd_split (body : List Bytes) :
    ∃ back, body = trimEnd body ++ back ∧ bodyComponents (trimEnd body) = bodyComponents body := by
  have whole := List.takeWhile_append_dropWhile (p := isTrivial) (l := body.reverse)
  have split : body = trimEnd body ++ (body.reverse.takeWhile isTrivial).reverse := by
    rw [trimEnd, ← List.reverse_append, whole, List.reverse_reverse]
  refine ⟨_, split, ?_⟩
  have none : bodyComponents (body.reverse.takeWhile isTrivial).reverse = [] := by
    simp only [bodyComponents, List.map_eq_nil_iff, List.filter_eq_nil_iff, List.mem_reverse]
    intro segment member
    simpa using List.all_eq_true.mp List.all_takeWhile segment member
  rw [congrArg bodyComponents split, bodyComponents_append, none, List.append_nil]

theorem trimEnd_snoc {body : List Bytes} {segment : Bytes} (named : isTrivial segment = false) :
    trimEnd (body ++ [segment]) = body ++ [segment] := by
  simp [trimEnd, named]

theorem fileName?_join (p : Path) (n : Name) : (p.join n.path).fileName? = some n.bytes := by
  obtain ⟨body, parts, -⟩ := p.parts_join n
  simp [fileName?, parts, trimEnd_snoc n.not_isTrivial, n.valid.2.2.2.2]

theorem parent?_split {p : Path} {front : List Bytes} {last : Bytes}
    (ends : trimEnd p.parts.body = front ++ [last]) :
    ∃ q, p.parent? = some q ∧ p.components = q.components ++ bodyComponents [last] := by
  obtain ⟨back, split, trimmed⟩ := trimEnd_split p.parts.body
  obtain ⟨more, inner, same⟩ := trimEnd_split front
  have plain : (⟨p.parts.anchor, trimEnd front⟩ : Parts).Plain := by
    apply p.parts_plain.front
    rw [split, ends, List.append_assoc]
    exact (congrArg (· ++ _) inner).trans (List.append_assoc ..)
  refine ⟨Parts.path ⟨p.parts.anchor, trimEnd front⟩, ?_, ?_⟩
  · simp only [parent?, ends]
    cases whole : front ++ [last] with
    | nil => simp at whole
    | cons first rest =>
      dsimp only
      rw [← whole, List.dropLast_concat]
  · rw [plain.components_path, same, components, ← trimmed, ends, bodyComponents_append, List.append_assoc]

theorem fileName?_name {p : Path} {last : Bytes} (named : p.fileName? = some last) (plain : 0 ∉ p.bytes) :
    ∃ (n : Name) (front : List Bytes), n.bytes = last ∧ trimEnd p.parts.body = front ++ [last] := by
  unfold fileName? at named
  split at named
  · rename_i segment ends
    split at named
    · cases named
    · rename_i other
      cases named
      obtain ⟨front, whole⟩ := List.getLast?_eq_some_iff.mp ends
      obtain ⟨back, split, -⟩ := trimEnd_split p.parts.body
      have member : last ∈ p.parts.body := by
        rw [split, whole]
        simp
      have named : isTrivial last = false := by
        have first := List.head?_dropWhile_not isTrivial p.parts.body.reverse
        have turned : p.parts.body.reverse.dropWhile isTrivial = last :: front.reverse := by
          simpa [trimEnd] using congrArg List.reverse whole
        simpa [turned] using first
      obtain ⟨nonempty, single⟩ : last ≠ [] ∧ last ≠ [dot] := by
        simpa [isTrivial] using named
      exact ⟨⟨last, nonempty, p.parts_plain.segments _ member,
        fun zero => plain (mem_of_segments (mem_of_parts member) zero), single, other⟩, front, rfl, whole⟩
  · cases named

theorem parent?_join (p : Path) (n : Name) :
    ∃ q, (p.join n.path).parent? = some q ∧ q.components = p.components := by
  obtain ⟨body, parts, -⟩ := p.parts_join n
  obtain ⟨q, found, same⟩ := parent?_split
    (show trimEnd (p.join n.path).parts.body = body ++ [n.bytes] by
      rw [parts, trimEnd_snoc n.not_isTrivial])
  rw [components_join, n.bodyComponents_eq, List.append_cancel_right_eq] at same
  exact ⟨q, found, same.symm⟩

end Path
end TreeDigest
